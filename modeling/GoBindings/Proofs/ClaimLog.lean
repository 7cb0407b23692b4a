/-
  GoBindings/Proofs/ClaimLog.lean
  ===============================
  **A registry answers as the log of the claims made to it.**

  A registry is asked to reserve one claim, to take in the types of a package, or to
  register a service. Each of these makes claims one by one, and what a call does to the
  owners is what its claims do behind the owners that there are (`owner?_answer`). A run
  therefore gives each identifier to whoever claimed it first (`owner?_replay`).

  Claims at one path neither see nor change the owners at another, so what is answered
  about a path is what the calls about that path alone would be answered
  (`transcript_filter`).
-/
import GoBindings.Proofs.Registry

namespace GoBindings.Registry

/-! ### Calls -/

/-- What a registry can be asked for. -/
inductive Call where
  | reserve (c : Claim)
  | seed (index : TypeIndex) (path : String)
  | register (path : String) (service : NamedService)

/-- The path whose identifiers a call is about. -/
def Call.path : Call → String
  | reserve c => c.path
  | seed _ path => path
  | register path _ => path

/-- The registry after a call, and the fault that the call is answered with, if any. -/
def answer (r : Registry) : Call → Registry × Option Fault
  | .reserve c =>
    match r.reserve c with
    | .ok next => (next, none)
    | .error fault => (r, some fault)
  | .seed index path => (r.seed index path, none)
  | .register path service => r.register path service

/-- Of claims that are made in order up to the first collision, those that are made. -/
def attempted (r : Registry) : List Claim → List Claim
  | [] => []
  | c :: rest =>
    match r.reserve c with
    | .ok next => c :: next.attempted rest
    | .error _ => [c]

/-- The claims that a call makes, granted or not. -/
def made (r : Registry) : Call → List Claim
  | .reserve c => [c]
  | .seed index path => typeClaims index path
  | .register path service => r.attempted (serviceClaims path service)

/-- The registry after calls, one after the other. -/
def replay (r : Registry) : List Call → Registry
  | [] => r
  | call :: rest => (r.answer call).1.replay rest

/-- Every claim that calls make, in order. -/
def log (r : Registry) : List Call → List Claim
  | [] => []
  | call :: rest => r.made call ++ (r.answer call).1.log rest

/-- Calls with their answers. -/
def transcript (r : Registry) : List Call → List (Call × Option Fault)
  | [] => []
  | call :: rest => (call, (r.answer call).2) :: (r.answer call).1.transcript rest

/-! ### Single claims -/

variable {r s next : Registry} {c : Claim} {claims : List Claim} {path ident : String}
  {fault : Fault}

theorem reserve_of_holds (h : r.Holds c) : r.reserve c = .ok r := by
  have howner : r.owner? c.path c.ident = some c.origin := h
  rw [reserve, howner]
  exact if_pos rfl

theorem reserve_eq_error_iff :
    r.reserve c = .error fault ↔
      ∃ first, r.owner? c.path c.ident = some first ∧ first ≠ c.origin ∧
        fault = .identifierCollision c.ident first c.origin := by
  unfold reserve
  cases r.owner? c.path c.ident with
  | none => simp
  | some first =>
    by_cases horigin : first = c.origin
    · simp [horigin]
    · simp [horigin, eq_comm (a := fault)]

theorem or_owner?_of_reserve_error (h : r.reserve c = .error fault) (path ident : String) :
    (r.owner? path ident).or (owner? ⟨[c]⟩ path ident) = r.owner? path ident := by
  obtain ⟨first, howner, -⟩ := reserve_eq_error_iff.mp h
  exact or_owner?_singleton (howner ▸ rfl) path ident

/-! ### Claims in order -/

theorem owner?_reserveAll (claims : List Claim) (r : Registry) (path ident : String) :
    (r.reserveAll claims).1.owner? path ident =
      (r.owner? path ident).or (owner? ⟨r.attempted claims⟩ path ident) := by
  induction claims generalizing r with
  | nil => exact Option.or_none.symm
  | cons c rest ih =>
    cases h : r.reserve c with
    | error fault =>
      rw [reserveAll_cons_error h, attempted, h]
      exact (or_owner?_of_reserve_error h path ident).symm
    | ok next =>
      rw [reserveAll_cons_ok h, attempted, h, ih, owner?_reserve h, Option.or_assoc]
      exact congrArg _ (owner?_append [c] (next.attempted rest) path ident).symm

theorem attempted_of_granted (h : (r.reserveAll claims).2 = none) :
    r.attempted claims = claims := by
  induction claims generalizing r with
  | nil => rfl
  | cons c rest ih =>
    cases hc : r.reserve c with
    | error fault =>
      rw [reserveAll_cons_error hc] at h
      exact nomatch h
    | ok next =>
      rw [reserveAll_cons_ok hc] at h
      rw [attempted, hc]
      exact congrArg (c :: ·) (ih h)

/-- A collision stops the claims: those in front of it are granted and those behind it are not
    made. -/
theorem exists_of_reserveAll_eq_some (h : (r.reserveAll claims).2 = some fault) :
    ∃ before c after, claims = before ++ c :: after ∧
      r.reserveAll before = ((r.reserveAll claims).1, none) ∧
      (r.reserveAll claims).1.reserve c = .error fault := by
  induction claims generalizing r with
  | nil => exact nomatch h
  | cons c rest ih =>
    cases hc : r.reserve c with
    | error found =>
      rw [reserveAll_cons_error hc] at h ⊢
      obtain rfl := Option.some.inj h
      exact ⟨[], c, rest, rfl, rfl, hc⟩
    | ok next =>
      rw [reserveAll_cons_ok hc] at h ⊢
      obtain ⟨before, d, after, rfl, hbefore, hd⟩ := ih h
      exact ⟨c :: before, d, after, rfl, by rw [reserveAll_cons_ok hc, hbefore], hd⟩

/-- Claims that were made before are granted or refused as before, and change nothing. -/
theorem reserveAll_again (claims : List Claim) (r : Registry) :
    (r.reserveAll claims).1.reserveAll claims = r.reserveAll claims := by
  induction claims generalizing r with
  | nil => rfl
  | cons c rest ih =>
    cases h : r.reserve c with
    | error fault => rw [reserveAll_cons_error h, reserveAll_cons_error h]
    | ok next =>
      have hholds : (next.reserveAll rest).1.Holds c :=
        Holds.mono (owner?_reserve_self h) (extends_reserveAll rest next)
      rw [reserveAll_cons_ok h, reserveAll_cons_ok (reserve_of_holds hholds), ih]

theorem foldl_offer_of_contains (h : ∀ c ∈ claims, r.contains c.path c.ident) :
    claims.foldl offer r = r := by
  induction claims with
  | nil => rfl
  | cons c rest ih =>
    rw [List.forall_mem_cons] at h
    rw [List.foldl_cons, offer, if_pos h.1, ih h.2]

theorem seed_again (r : Registry) (index : TypeIndex) (path : String) :
    (r.seed index path).seed index path = r.seed index path := by
  refine foldl_offer_of_contains fun c hc => ?_
  rw [contains, owner?_seed, Option.isSome_or, Bool.or_eq_true]
  exact .inr (owner?_isSome_of_mem hc)

/-! ### One call -/

theorem owner?_answer (r : Registry) (call : Call) (path ident : String) :
    (r.answer call).1.owner? path ident =
      (r.owner? path ident).or (owner? ⟨r.made call⟩ path ident) := by
  cases call with
  | reserve c =>
    unfold answer made
    dsimp only
    cases h : r.reserve c with
    | error fault => exact (or_owner?_of_reserve_error h path ident).symm
    | ok next => exact owner?_reserve h path ident
  | seed index packagePath => exact owner?_seed r index packagePath path ident
  | register packagePath service =>
    exact owner?_reserveAll (serviceClaims packagePath service) r path ident

/-- A call that is repeated at once is answered as before, and changes nothing. -/
theorem answer_again (r : Registry) (call : Call) :
    (r.answer call).1.answer call = r.answer call := by
  cases call with
  | reserve c =>
    unfold answer
    dsimp only
    cases h : r.reserve c with
    | error fault =>
      dsimp only
      rw [h]
    | ok next =>
      dsimp only
      rw [reserve_of_holds (owner?_reserve_self h)]
  | seed index packagePath => exact congrArg (·, none) (seed_again r index packagePath)
  | register packagePath service =>
    exact reserveAll_again (serviceClaims packagePath service) r

theorem mem_of_mem_attempted (h : c ∈ r.attempted claims) : c ∈ claims := by
  induction claims generalizing r with
  | nil => exact h
  | cons d rest ih =>
    rw [attempted] at h
    split at h
    · rcases List.mem_cons.mp h with rfl | hrest
      · exact List.mem_cons_self
      · exact List.mem_cons_of_mem d (ih hrest)
    · rw [List.mem_singleton.mp h]
      exact List.mem_cons_self

/-- The claims of a call are all at its path. -/
theorem path_of_mem_made {call : Call} (h : c ∈ r.made call) : c.path = call.path := by
  cases call with
  | reserve d => rw [List.mem_singleton.mp h]; rfl
  | seed index packagePath => exact path_of_mem_typeClaims h
  | register packagePath service =>
    exact path_of_mem_serviceClaims (mem_of_mem_attempted h)

/-- A call leaves the owners at other paths alone. -/
theorem answer_sameAt_of_ne {call : Call} (hne : call.path ≠ path) (r : Registry) :
    SameAt path (r.answer call).1 r := by
  intro ident
  have hmade : owner? ⟨r.made call⟩ path ident = none :=
    owner?_eq_none_of_path_ne fun c hc => path_of_mem_made hc ▸ hne
  rw [owner?_answer, hmade, Option.or_none]

/-- A call looks at the owners at its path only. -/
theorem answer_sameAt {call : Call} (h : SameAt call.path r s) :
    (r.answer call).2 = (s.answer call).2 ∧
      SameAt call.path (r.answer call).1 (s.answer call).1 := by
  cases call with
  | reserve c =>
    unfold answer
    dsimp only
    obtain ⟨fault, hr, hs⟩ | ⟨r', s', hr, hs, hnext⟩ := reserve_sameAt (c := c) h
    · rw [hr, hs]
      exact ⟨rfl, h⟩
    · rw [hr, hs]
      exact ⟨rfl, hnext⟩
  | seed index packagePath =>
    refine ⟨rfl, fun ident => ?_⟩
    rw [owner?_answer, owner?_answer, h ident]
    rfl
  | register packagePath service =>
    exact reserveAll_sameAt (fun c hc => path_of_mem_serviceClaims hc) h

/-! ### Runs -/

theorem owner?_replay (calls : List Call) (r : Registry) (path ident : String) :
    (r.replay calls).owner? path ident =
      (r.owner? path ident).or (owner? ⟨r.log calls⟩ path ident) := by
  induction calls generalizing r with
  | nil => exact Option.or_none.symm
  | cons call rest ih =>
    rw [replay, log, ih, owner?_answer, Option.or_assoc, owner?_append]

theorem replay_append (calls later : List Call) (r : Registry) :
    r.replay (calls ++ later) = (r.replay calls).replay later := by
  induction calls generalizing r with
  | nil => rfl
  | cons call rest ih => exact ih (r.answer call).1

theorem extends_replay (calls : List Call) (r : Registry) : r.Extends (r.replay calls) :=
  extends_of_or (owner?_replay calls r)

/-- What is answered about a path, and the owners at it, are as if only the calls about that path
    had been made. -/
theorem transcript_filter (calls : List Call) (h : SameAt path r s) :
    ((r.transcript calls).filter fun entry => entry.1.path == path) =
        s.transcript (calls.filter fun call => call.path == path) ∧
      SameAt path (r.replay calls) (s.replay (calls.filter fun call => call.path == path)) := by
  induction calls generalizing r s with
  | nil => exact ⟨rfl, h⟩
  | cons call rest ih =>
    by_cases hpath : call.path = path
    · subst hpath
      obtain ⟨hanswer, hnext⟩ := answer_sameAt h
      obtain ⟨hrest, hlast⟩ := ih hnext
      simp only [transcript, List.filter_cons, beq_self_eq_true, if_true, hanswer, hrest]
      exact ⟨trivial, hlast⟩
    · have hnext : SameAt path (r.answer call).1 s := fun ident =>
        (answer_sameAt_of_ne hpath r ident).trans (h ident)
      rw [transcript, List.filter_cons_of_neg (by simpa using hpath),
        List.filter_cons_of_neg (by simpa using hpath)]
      exact ih hnext

/-! ### The first claim wins -/

/-- The claims up to some claim are granted, that claim collides, and those behind it are not
    made. -/
inductive Stopped (r : Registry) : List Claim → Registry → Fault → Prop
  | intro {before after : List Claim} {c : Claim} {first : String} {next : Registry}
      (granted : ∀ d ∈ before, next.owner? d.path d.ident = some d.origin)
      (others : ∀ path ident, next.owner? path ident = (r.owner? path ident).or
        ((before.find? fun d => d.path == path && d.ident == ident).map (·.origin)))
      (taken : next.owner? c.path c.ident = some first) (hne : first ≠ c.origin) :
      Stopped r (before ++ c :: after) next (.identifierCollision c.ident first c.origin)

theorem stopped_of_reserveAll (h : (r.reserveAll claims).2 = some fault) :
    Stopped r claims (r.reserveAll claims).1 fault := by
  obtain ⟨before, c, after, hclaims, hbefore, hc⟩ := exists_of_reserveAll_eq_some h
  obtain ⟨first, howner, hne, rfl⟩ := reserve_eq_error_iff.mp hc
  have hgranted : (r.reserveAll before).2 = none := congrArg Prod.snd hbefore
  have hnext : (r.reserveAll before).1 = (r.reserveAll claims).1 := by rw [hbefore]
  rw [← hnext] at howner ⊢
  rw [hclaims]
  refine .intro (holds_of_reserveAll hgranted) (fun path ident => ?_) howner hne
  rw [owner?_reserveAll, attempted_of_granted hgranted]
  rfl

theorem answer_reserve_eq_some_iff :
    (r.answer (.reserve c)).2 = some fault ↔ r.reserve c = .error fault := by
  unfold answer
  dsimp only
  cases r.reserve c <;> simp

/-- A registry is a log in which the first claim wins. After calls to an empty registry the owner
    of an identifier is the origin of the first claim that was made for it, and stays the owner;
    what was answered about a path is what the calls about that path alone are answered. At any
    time, a reservation fails exactly if there is another owner, and then changes nothing; taking
    in types never fails; a call leaves other paths alone; a registration that fails has granted
    the claims in front of the one that collides and no others; and a call that is repeated at
    once is answered as before and changes nothing. -/
theorem first_claim_wins :
    (∀ calls path ident, (empty.replay calls).owner? path ident =
        ((empty.log calls).find? fun c => c.path == path && c.ident == ident).map (·.origin)) ∧
      (∀ calls later, (empty.replay calls).Extends (empty.replay (calls ++ later))) ∧
      (∀ calls path, ((empty.transcript calls).filter fun entry => entry.1.path == path) =
        empty.transcript (calls.filter fun call => call.path == path)) ∧
      (∀ (r : Registry) (c : Claim) fault, (r.answer (.reserve c)).2 = some fault ↔
        ∃ first, r.owner? c.path c.ident = some first ∧ first ≠ c.origin ∧
          fault = .identifierCollision c.ident first c.origin) ∧
      (∀ (r : Registry) (c : Claim) fault, (r.answer (.reserve c)).2 = some fault →
        (r.answer (.reserve c)).1 = r) ∧
      (∀ (r : Registry) index path, (r.answer (.seed index path)).2 = none) ∧
      (∀ (r : Registry) (call : Call) path, call.path ≠ path →
        SameAt path (r.answer call).1 r) ∧
      (∀ (r : Registry) path service fault,
        (r.answer (.register path service)).2 = some fault →
        Stopped r (serviceClaims path service) (r.answer (.register path service)).1 fault) ∧
      ∀ (r : Registry) (call : Call), (r.answer call).1.answer call = r.answer call := by
  refine ⟨?_, ?_, ?_, ?_, ?_, fun _ _ _ => rfl, fun r _ _ hne => answer_sameAt_of_ne hne r,
    fun _ _ _ _ h => stopped_of_reserveAll h, answer_again⟩
  · intro calls path ident
    rw [owner?_replay]
    rfl
  · intro calls later
    rw [replay_append]
    exact extends_replay later _
  · intro calls path
    exact (transcript_filter calls fun _ => rfl).1
  · intro r c fault
    rw [answer_reserve_eq_some_iff, reserve_eq_error_iff]
  · intro r c fault h
    rw [answer_reserve_eq_some_iff] at h
    rw [answer, h]

/-- A message has the name that a client would get. -/
def messageFirst : Registry :=
  empty.replay [.reserve ⟨"x/oms", "OrdersNexusClient", "message oms.OrdersNexusClient"⟩]

def orders : NamedService :=
  ⟨⟨"oms.Orders", "Orders", "oms", "oms.proto", none, []⟩, .ofName "Orders", []⟩

theorem first_claim_wins_messageFirst :
    (messageFirst.answer (.register "x/oms" orders)).2 = some (.identifierCollision
        "OrdersNexusClient" "message oms.OrdersNexusClient" "service oms.Orders") ∧
      Stopped messageFirst (serviceClaims "x/oms" orders)
        (messageFirst.answer (.register "x/oms" orders)).1 (.identifierCollision
          "OrdersNexusClient" "message oms.OrdersNexusClient" "service oms.Orders") ∧
      (messageFirst.answer
        (.reserve ⟨"x/oms", "OrdersNexusClient", "service oms.Orders"⟩)).1 = messageFirst ∧
      SameAt "x/other" (messageFirst.answer (.register "x/oms" orders)).1 messageFirst := by
  have hregister : (messageFirst.answer (.register "x/oms" orders)).2 =
      some (.identifierCollision "OrdersNexusClient" "message oms.OrdersNexusClient"
        "service oms.Orders") := by
    decide +kernel
  have hreserve : (messageFirst.answer
      (.reserve ⟨"x/oms", "OrdersNexusClient", "service oms.Orders"⟩)).2 =
      some (.identifierCollision "OrdersNexusClient" "message oms.OrdersNexusClient"
        "service oms.Orders") := by
    decide +kernel
  obtain ⟨-, -, -, -, hunchanged, -, hframe, hstopped, -⟩ := first_claim_wins
  exact ⟨hregister, hstopped _ _ _ _ hregister, hunchanged _ _ _ hreserve,
    hframe _ _ _ (by decide)⟩

end GoBindings.Registry
