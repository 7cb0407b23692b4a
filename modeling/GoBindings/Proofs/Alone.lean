/-
  GoBindings/Proofs/Alone.lean
  ============================
  **A target fares no better in company than alone.**

  Other targets reach a target only through the identifiers that they own in its Go
  package, and an owner can only stand in the way of a claim. What is granted to a target
  behind others is therefore granted to it alone (`Draft.claim_alone`), and the file is
  the same one, because nothing but the claim looks at the registry.

  That fails for registries in general. Types are offered to a package, and an offer takes
  nothing away from an owner, so a service that had been first could keep the identifier
  of a type and would only be refused alone. In a run the types of a package come first
  (`TypesFirst`), whatever targets have failed.
-/
import GoBindings.Proofs.Faults
import GoBindings.Proofs.Independence

namespace GoBindings

namespace Registry

variable {r s next : Registry} {c : Claim} {claims : List Claim} {path : String}

/-! ### Fewer owners -/

/-- Every owner at a path in the first registry is the owner in the second one. -/
def ExtendsAt (path : String) (r s : Registry) : Prop :=
  ∀ ident origin, r.owner? path ident = some origin → s.owner? path ident = some origin

/-- Where fewer identifiers are owned, a claim that is granted otherwise is granted too. -/
theorem reserve_of_extendsAt (h : ExtendsAt c.path r s) (hgranted : s.reserve c = .ok next) :
    ∃ r', r.reserve c = .ok r' ∧ ExtendsAt c.path r' next := by
  have hfree : r.owner? c.path c.ident = none ∨ r.owner? c.path c.ident = some c.origin := by
    cases howner : r.owner? c.path c.ident with
    | none => exact .inl rfl
    | some origin =>
      have hs := h _ _ howner
      obtain ⟨hnone, -⟩ | ⟨hsame, -⟩ := reserve_eq_ok hgranted
      · exact nomatch hnone.symm.trans hs
      · exact .inr (hs.symm.trans hsame)
  have hreserve : ∃ r', r.reserve c = .ok r' := by
    unfold reserve
    rcases hfree with hnone | hsame
    · rw [hnone]
      exact ⟨_, rfl⟩
    · rw [hsame]
      exact ⟨r, if_pos rfl⟩
  obtain ⟨r', hr'⟩ := hreserve
  refine ⟨r', hr', ?_⟩
  intro ident origin howner
  rw [owner?_reserve hr', Option.or_eq_some_iff] at howner
  rcases howner with hold | ⟨-, hnew⟩
  · exact extends_reserve hgranted _ _ _ (h _ _ hold)
  · obtain ⟨d, hd, -, rfl, rfl⟩ := exists_claim_of_owner? hnew
    obtain rfl := List.mem_singleton.mp hd
    exact owner?_reserve_self hgranted

theorem reserveAll_of_extendsAt (hpath : ∀ c ∈ claims, c.path = path) (h : ExtendsAt path r s)
    (hgranted : (s.reserveAll claims).2 = none) : (r.reserveAll claims).2 = none := by
  induction claims generalizing r s with
  | nil => rfl
  | cons c rest ih =>
    obtain ⟨rfl, hrest⟩ := List.forall_mem_cons.mp hpath
    cases hs : s.reserve c with
    | error fault =>
      rw [reserveAll_cons_error hs] at hgranted
      exact nomatch hgranted
    | ok next =>
      obtain ⟨r', hr', hnext⟩ := reserve_of_extendsAt h hs
      rw [reserveAll_cons_ok hs] at hgranted
      rw [reserveAll_cons_ok hr']
      exact ih hrest hnext hgranted

/-! ### Types come first -/

/-- At every path either nothing is claimed, or each type identifier belongs to the type that
    has it in a registry of types alone. -/
def TypesFirst (index : TypeIndex) (r : Registry) : Prop :=
  ∀ path, (∀ ident, r.owner? path ident = none) ∨ ExtendsAt path (empty.seed index path) r

theorem typesFirst_empty (index : TypeIndex) : TypesFirst index empty :=
  fun _ => .inl fun _ => rfl

theorem TypesFirst.seed {index : TypeIndex} (h : TypesFirst index r) (path : String) :
    ExtendsAt path (empty.seed index path) (r.seed index path) := by
  intro ident origin howner
  rcases h path with hnone | htypes
  · rw [owner?_seed] at howner ⊢
    rwa [hnone]
  · exact extends_seed r index path path ident origin (htypes ident origin howner)

end Registry

namespace Environment

variable {env : Environment} {r next : Registry} {d : Draft}

namespace Draft

theorem typesFirst_claim (hfirst : r.TypesFirst env.index) (h : d.claim env r = .ok next) :
    next.TypesFirst env.index := by
  intro path
  by_cases hpath : d.package.importPath = path
  · subst hpath
    refine .inr fun ident origin howner => ?_
    exact extends_seed_claim h _ _ _ (hfirst.seed _ ident origin howner)
  · simp only [Registry.ExtendsAt, owner?_claim_of_ne h hpath]
    exact hfirst path

/-- What a draft is granted behind other targets it is granted alone. -/
theorem claim_alone (hfirst : r.TypesFirst env.index) (h : d.claim env r = .ok next) :
    ∃ alone, d.claim env Registry.empty = .ok alone := by
  have hgranted := Registry.reserveAll_of_extendsAt (fun c hc => path_of_mem_claims hc)
    (hfirst.seed d.package.importPath) (congrArg Prod.snd (claim_eq_ok h))
  rw [claim_eq]
  generalize (Registry.empty.seed env.index d.package.importPath).reserveAll d.claims = reached
    at hgranted
  obtain ⟨alone, fault⟩ := reached
  obtain rfl : fault = none := hgranted
  exact ⟨alone, rfl⟩

end Draft

theorem typesFirst_settle (h : r.TypesFirst env.index) (target : String) :
    (env.settle r target).2.TypesFirst env.index := by
  obtain hsame | ⟨p, -, -, hclaim⟩ := settle_cases env r target
  · rwa [hsame]
  · exact Draft.typesFirst_claim h hclaim

theorem typesFirst_registryAfter (h : r.TypesFirst env.index) (targets : List String) :
    (env.registryAfter r targets).TypesFirst env.index :=
  registryAfter_induction (P := (·.TypesFirst env.index))
    (fun _ target hnext => typesFirst_settle hnext target) h targets

/-! ### One target, behind others and alone -/

theorem settle_refused {target : String} {fault : Fault}
    (hdraft : (env.draftFor target).outcome = .ok (some d))
    (hclaim : d.claim env r = .error fault) :
    (env.settle r target).1.outcome = .failed fault := by
  have hattempt : (env.attempt r target).outcome = .error fault := by
    rw [attempt_eq, Traced.outcome_bind_ok hdraft, finish_refused hclaim]
  rw [settle, hattempt]

/-- Alone a target ends as it does behind others, unless it has something to claim and the
    others own it. -/
theorem settle_alone (hfirst : r.TypesFirst env.index) (target : String) :
    (env.settle r target).1 = (env.settle Registry.empty target).1 ∨
      ((env.settle Registry.empty target).1.outcome ≠ .nothing ∧
        ∃ ident first second, (env.settle r target).1.outcome =
          .failed (.identifierCollision ident first second)) := by
  cases hdraft : (env.draftFor target).outcome with
  | error fault =>
    refine .inl (settle_congr fun drafted hdrafted => ?_)
    cases hdraft.symm.trans hdrafted
  | ok drafted =>
    cases drafted with
    | none =>
      refine .inl (settle_congr fun drafted hdrafted => ?_)
      obtain rfl : none = drafted := Except.ok.inj (hdraft.symm.trans hdrafted)
      rfl
    | some d =>
      cases hclaim : d.claim env r with
      | ok next =>
        -- granted here and so granted alone, and the rest of the way is the same
        obtain ⟨alone, halone⟩ := Draft.claim_alone hfirst hclaim
        refine .inl (settle_congr fun drafted hdrafted => ?_)
        obtain rfl : some d = drafted := Except.ok.inj (hdraft.symm.trans hdrafted)
        simp only [finish, map_bind, map_pure, hclaim, halone]
        rfl
      | error fault =>
        obtain ⟨ident, first, second⟩ := Draft.failsWith_claim env d r fault hclaim
        refine .inr ⟨?_, ident, first, second, settle_refused hdraft hclaim⟩
        intro hnothing
        have hends := settle_ends env Registry.empty target
        rw [hnothing] at hends
        generalize (env.settle Registry.empty target).2 = reached at hends
        cases hends with
        | nothing hnone => cases hdraft.symm.trans hnone

/-- The target at any position of a list is settled behind the targets before it. -/
theorem settleAll_getElem? {targets : List String} {i : Nat} {s : Settled}
    (h : (env.settleAll r targets)[i]? = some s) :
    ∃ target, targets[i]? = some target ∧
      s = (env.settle (env.registryAfter r (targets.take i)) target).1 := by
  have hi : i < targets.length := by
    rw [← length_settleAll env r targets]
    exact (List.getElem?_eq_some_iff.mp h).1
  obtain ⟨before, target, after, rfl, rfl⟩ := exists_split hi
  rw [getElem?_settleAll] at h
  exact ⟨target, by simp, by rw [List.take_left, Option.some.inj h]⟩

end Environment

/-! ### Requests -/

namespace Request

/-- The request for one target alone. -/
def only (request : Request) (target : String) : Request := { request with targets := [target] }

theorem environment?_only (request : Request) (target : String) :
    (request.only target).environment? = request.environment? := rfl

/-- What any target of a request comes to, it comes to alone, byte for byte, unless others own
    what it claims. So a file that is returned is returned alone as well, without a failure,
    and a target that fails alone fails in every list. -/
theorem settled_only {request : Request} {i : Nat} {s : Environment.Settled}
    (h : request.settled[i]? = some s) :
    (generate request).outcome = .ok (Response.ofTargets request.settled) ∧
      request.targets[i]? = some s.target ∧
      ∃ alone, (request.only s.target).settled = [alone] ∧
        (generate (request.only s.target)).outcome = .ok (Response.ofTargets [alone]) ∧
        (s = alone ∨ (alone.outcome ≠ .nothing ∧ ∃ ident first second,
          s.outcome = .failed (.identifierCollision ident first second))) ∧
        (∀ file, s.outcome = .generated file →
          (generate (request.only s.target)).outcome =
            .ok ⟨none, some Response.features, [⟨some file.name, none, some file.content⟩]⟩) ∧
        (∀ fault, alone.outcome = .failed fault → ∃ later, s.outcome = .failed later) := by
  cases henv : request.environment? with
  | error fault =>
    rw [settled, henv] at h
    cases h
  | ok env =>
    have hrun : env.settleAll Registry.empty request.targets = request.settled := by
      rw [settled, henv]
    obtain ⟨target, htarget, hs⟩ := Environment.settleAll_getElem? (hrun ▸ h)
    obtain rfl : s.target = target := by rw [hs, Environment.target_settle]
    have halone : (request.only s.target).settled =
        [(env.settle Registry.empty s.target).1] := by
      rw [settled, environment?_only, henv]
      rfl
    have hgenerate : (generate (request.only s.target)).outcome =
        .ok (Response.ofTargets [(env.settle Registry.empty s.target).1]) :=
      halone ▸ generate_outcome (environment?_only request s.target ▸ henv)
    have hcases := Environment.settle_alone (Environment.typesFirst_registryAfter
      (Registry.typesFirst_empty env.index) (request.targets.take i)) s.target
    rw [← hs] at hcases
    refine ⟨generate_outcome henv, htarget, _, halone, hgenerate, hcases, ?_, ?_⟩
    · intro file hfile
      rcases hcases with hsame | ⟨-, ident, first, second, hcollision⟩
      · rw [hgenerate, ← hsame, Response.ofTargets, List.filterMap_cons, List.filterMap_cons,
          Response.failureLine?, Response.fileOf?, hfile]
        rfl
      · cases hfile.symm.trans hcollision
    · intro fault hfault
      rcases hcases with hsame | ⟨-, ident, first, second, hcollision⟩
      · exact ⟨fault, hsame ▸ hfault⟩
      · exact ⟨_, hcollision⟩

/-- Two files that declare the same identifiers in one Go package. -/
def rivals : Request where
  targets := ["shop.proto", "store.proto"]
  parameter := none
  compilerVersion := none
  files :=
    [sampleFile "shop.proto" "shop" "example.com/shop" ["Cart"]
        [("Shop", [("Order", ".shop.Cart")])],
      sampleFile "store.proto" "store" "example.com/shop" [] [("Shop", [("Order", ".shop.Cart")])]]

/-- The first one is alone what it is in company. The second one is refused behind it and is
    generated alone. -/
theorem settled_only_rivals :
    (∃ s file, rivals.settled[0]? = some s ∧ s.outcome = .generated file ∧
      (generate (rivals.only "shop.proto")).outcome =
        .ok ⟨none, some Response.features, [⟨some file.name, none, some file.content⟩]⟩) ∧
      ∃ s alone, rivals.settled[1]? = some s ∧
        (rivals.only "store.proto").settled = [alone] ∧ s ≠ alone ∧
        ∃ ident first second, s.outcome = .failed (.identifierCollision ident first second) := by
  have hfirst : (rivals.settled[0]?).map (·.target) = some "shop.proto" ∧
      (rivals.settled[0]?.bind Response.fileOf?).isSome := by
    decide +kernel
  have hsecond : (rivals.settled[1]?).map (·.target) = some "store.proto" ∧
      (rivals.settled[1]?.bind Response.failureLine?).isSome ∧
      (rivals.only "store.proto").settled.filterMap Response.failureLine? = [] := by
    decide +kernel
  constructor
  · obtain ⟨htarget, hfile⟩ := hfirst
    obtain ⟨s, hs, hname⟩ := Option.map_eq_some_iff.mp htarget
    obtain ⟨-, -, alone, -, -, -, hsame, -⟩ := settled_only hs
    rw [hs, Option.bind_some, Response.fileOf?] at hfile
    cases houtcome : s.outcome with
    | generated file => exact ⟨s, file, hs, houtcome, hname ▸ hsame file houtcome⟩
    | nothing => rw [houtcome] at hfile; cases hfile
    | failed fault => rw [houtcome] at hfile; cases hfile
  · obtain ⟨htarget, hline, hquiet⟩ := hsecond
    obtain ⟨s, hs, hname⟩ := Option.map_eq_some_iff.mp htarget
    obtain ⟨-, -, alone, halone, -, hcases, -, -⟩ := settled_only hs
    have hne : s ≠ alone := by
      rintro rfl
      rw [← hname, halone, List.filterMap_eq_nil_iff] at hquiet
      rw [hs, Option.bind_some, hquiet s List.mem_cons_self] at hline
      cases hline
    refine ⟨s, alone, hs, hname ▸ halone, hne, ?_⟩
    rcases hcases with hsame | ⟨-, hcollision⟩
    · exact absurd hsame hne
    · exact hcollision

end Request

end GoBindings
