/-
  GoBindings/Proofs/Generation.lean
  =================================
  **A run, cut where the registry comes in.**

  Of all that a run does for a target only one step looks at the registry or
  changes it: `Draft.claim`. What comes before (`draft`: the services, their names
  and the name of the output) and what comes after (`Draft.document`: the types and
  the imports) is a function of the source file alone. `generateFile_eq` says so,
  and every statement about several targets starts from it.

  A target ends in one of a few ways (`settle_ends`), and only one of them changes the
  registry. A returned file is the text of the document of a `Publication`, and
  `Request.published` lists what was published (`files_eq_published`).
-/
import GoBindings.Proofs.Registry
import GoBindings.Run

namespace GoBindings

/-! ### Computations that report events, as a monad -/

namespace Traced

variable {α β : Type}

@[simp] theorem andThen_result (a : α) (f : α → Traced β) : (result a).andThen f = f a := rfl

theorem andThen_assoc {γ : Type} (x : Traced α) (f : α → Traced β) (g : β → Traced γ) :
    (x.andThen f).andThen g = x.andThen fun a => (f a).andThen g := by
  obtain ⟨events, outcome⟩ := x
  cases outcome with
  | error fault => rfl
  | ok a => cases h : (f a).outcome <;> simp [andThen, h]

theorem andThen_result_right (x : Traced α) : x.andThen result = x := by
  obtain ⟨events, outcome⟩ := x
  cases outcome with
  | error fault => rfl
  | ok a => simp [andThen, result]

instance : LawfulMonad Traced :=
  LawfulMonad.mk' Traced (fun x => andThen_result_right x) (fun a f => andThen_result a f)
    (fun x f g => andThen_assoc x f g)

theorem ofExcept_ok (a : α) : ofExcept (.ok a) = pure a := rfl

theorem outcome_bind_ok {x : Traced α} {a : α} (h : x.outcome = .ok a) (f : α → Traced β) :
    (x >>= f).outcome = (f a).outcome := by
  rw [outcome_bind, h]
  rfl

theorem outcome_bind_error {x : Traced α} {fault : Fault} (h : x.outcome = .error fault)
    (f : α → Traced β) : (x >>= f).outcome = .error fault := by
  rw [outcome_bind, h]
  rfl

theorem except_bind_eq_ok {x : Except Fault α} {f : α → Except Fault β} {b : β} :
    (x >>= f) = .ok b ↔ ∃ a, x = .ok a ∧ f a = .ok b := by
  constructor
  · intro h
    cases x with
    | error fault => exact nomatch h
    | ok a => exact ⟨a, rfl, h⟩
  · rintro ⟨a, rfl, h⟩
    exact h

theorem except_bind_eq_error {x : Except Fault α} {f : α → Except Fault β} {fault : Fault} :
    (x >>= f) = .error fault ↔ x = .error fault ∨ ∃ a, x = .ok a ∧ f a = .error fault := by
  constructor
  · intro h
    cases x with
    | error found => exact .inl (congrArg Except.error (Except.error.inj h))
    | ok a => exact .inr ⟨a, rfl, h⟩
  · rintro (rfl | ⟨a, rfl, h⟩)
    · rfl
    · exact h

theorem outcome_bind_eq_ok {x : Traced α} {f : α → Traced β} {b : β} :
    (x >>= f).outcome = .ok b ↔ ∃ a, x.outcome = .ok a ∧ (f a).outcome = .ok b := by
  rw [outcome_bind]
  exact except_bind_eq_ok

theorem outcome_bind_eq_error {x : Traced α} {f : α → Traced β} {fault : Fault} :
    (x >>= f).outcome = .error fault ↔
      x.outcome = .error fault ∨ ∃ a, x.outcome = .ok a ∧ (f a).outcome = .error fault := by
  rw [outcome_bind]
  exact except_bind_eq_error

end Traced

/-! ### Runs over a list -/

/-- A run over a list that depends on the elements it has passed. Behind these the next one is
    refused, or it is passed as well and something is made of it. -/
structure Stepwise {α β : Type} (run : List α → List α → Except Fault (List β)) (make : α → β)
    (Passed : List α → Prop) (Refused : List α → α → Fault → Prop) : Prop where
  nil : ∀ before, run before [] = .ok []
  refused : ∀ {before x fault}, Passed before → Refused before x fault → ∀ rest,
    run before (x :: rest) = .error fault
  passed : ∀ {before x}, Passed (before ++ [x]) → ∀ rest,
    run before (x :: rest) = run (before ++ [x]) rest >>= fun more => .ok (make x :: more)
  next : ∀ {before}, Passed before → ∀ x,
    (∃ fault, Refused before x fault) ∨ Passed (before ++ [x])
  part : ∀ {before after}, Passed (before ++ after) → Passed before

namespace Stepwise

variable {α β : Type} {run : List α → List α → Except Fault (List β)} {make : α → β}
  {Passed : List α → Prop} {Refused : List α → α → Fault → Prop} {before xs : List α}

/-- A run succeeds exactly if all elements are passed. -/
theorem eq_ok_iff (h : Stepwise run make Passed Refused) (hbefore : Passed before)
    {ys : List β} : run before xs = .ok ys ↔ Passed (before ++ xs) ∧ ys = xs.map make := by
  -- on what is left, while the passed part grows
  induction xs generalizing before ys with
  | nil =>
    rw [h.nil, List.append_nil]
    constructor
    · intro hok
      exact ⟨hbefore, (Except.ok.inj hok).symm⟩
    · rintro ⟨-, rfl⟩
      rfl
  | cons x rest ih =>
    rw [List.append_cons]
    constructor
    · intro hok
      rcases h.next hbefore x with ⟨fault, hx⟩ | hx
      · exact nomatch hok.symm.trans (h.refused hbefore hx rest)
      · rw [h.passed hx, Traced.except_bind_eq_ok] at hok
        obtain ⟨more, hmore, hys⟩ := hok
        obtain ⟨hall, rfl⟩ := (ih hx).mp hmore
        exact ⟨hall, (Except.ok.inj hys).symm⟩
    · rintro ⟨hall, rfl⟩
      have hx := h.part hall
      rw [h.passed hx, (ih hx).mpr ⟨hall, rfl⟩]
      rfl

/-- Otherwise the first element that is refused gives the fault. -/
theorem eq_error_iff (h : Stepwise run make Passed Refused) (hbefore : Passed before)
    {fault : Fault} : run before xs = .error fault ↔
      ∃ earlier x later, xs = earlier ++ x :: later ∧ Passed (before ++ earlier) ∧
        Refused (before ++ earlier) x fault := by
  induction xs generalizing before with
  | nil =>
    rw [h.nil]
    constructor
    · intro herror
      exact nomatch herror
    · rintro ⟨earlier, x, later, hxs, -⟩
      exact absurd hxs.symm (by simp)
  | cons x rest ih =>
    constructor
    · intro herror
      rcases h.next hbefore x with ⟨found, hx⟩ | hx
      · obtain rfl := Except.error.inj ((h.refused hbefore hx rest).symm.trans herror)
        refine ⟨[], x, rest, rfl, ?_⟩
        rw [List.append_nil]
        exact ⟨hbefore, hx⟩
      · rw [h.passed hx, Traced.except_bind_eq_error] at herror
        rcases herror with hrest | ⟨more, -, hmore⟩
        · obtain ⟨earlier, other, later, rfl, hearlier, hother⟩ := (ih hx).mp hrest
          rw [← List.append_cons] at hearlier hother
          exact ⟨x :: earlier, other, later, rfl, hearlier, hother⟩
        · exact nomatch hmore
    · rintro ⟨earlier, other, later, hxs, hearlier, hother⟩
      cases earlier with
      | nil =>
        obtain ⟨rfl, rfl⟩ := List.cons.inj hxs
        rw [List.append_nil] at hother
        exact h.refused hbefore hother _
      | cons first earlier =>
        obtain ⟨rfl, rfl⟩ := List.cons.inj hxs
        rw [List.append_cons] at hearlier hother
        have hx := h.part hearlier
        rw [h.passed hx, Traced.except_bind_eq_error]
        exact .inl ((ih hx).mpr ⟨earlier, other, later, rfl, hearlier, hother⟩)

end Stepwise

namespace Environment

/-! ### Before and after the registry -/

/-- What a file with services is to become, as far as that is known without the registry. -/
structure Draft where
  source : Descriptor.File
  /-- The Go package that the output belongs to. -/
  package : Go.Package
  /-- The name of the output file. -/
  name : String
  services : List NamedService

/-- The draft for a source file, if it declares services. -/
def draft (env : Environment) (f : Descriptor.File) : Traced (Option Draft) := do
  let services ← Service.collect env.custom f
  if services.isEmpty then
    Traced.report (.noServices f.name)
    pure none
  else
    let name ← Traced.ofExcept
      (Placement.outputName f.name (env.sourcePackage f) (env.outputPackage f) env.settings)
    let named ← nameServices env.settings services
    pure (some ⟨f, env.outputPackage f, name, named⟩)

namespace Draft

/-- The identifiers that the services of a draft ask for, in the order of asking. -/
def claims (d : Draft) : List Claim :=
  d.services.flatMap (Registry.serviceClaims d.package.importPath)

/-- The registry after the types of the package and the services of the draft. -/
def claim (env : Environment) (d : Draft) (r : Registry) : Except Fault Registry :=
  (r.seed env.index d.package.importPath).registerAll d.package.importPath d.services

/-- The document for a draft: its services with their types mapped. -/
def document (env : Environment) (d : Draft) : Traced Document := do
  let (bound, imports) ← bindServices ⟨env.index, d.package⟩ Go.Imports.framework d.services
  pure ⟨d.source.name, d.package.name, generatorVersion, env.compilerVersion, imports, bound⟩

end Draft

/-- What is left to do with a draft, if there is one: to claim its identifiers and to write
    its document. -/
def finish (env : Environment) (r : Registry) :
    Option Draft → Traced (Option OutputFile × Registry)
  | none => pure (none, r)
  | some d => do
    let claimed ← Traced.ofExcept (d.claim env r)
    let document ← d.document env
    pure (some ⟨d.name, document.render⟩, claimed)

/-- Generation for a file asks the registry once, between the draft and the document. -/
theorem generateFile_eq (env : Environment) (r : Registry) (f : Descriptor.File) :
    env.generateFile r f = env.draft f >>= env.finish r := by
  simp only [generateFile, draft, generateServices, bind_assoc]
  congr
  funext services
  split
  · simp only [bind_assoc, pure_bind, finish]
  · simp only [bind_assoc, pure_bind, finish, Draft.claim, Draft.document]

/-! ### What a draft does to the registry -/

namespace Draft

variable {env : Environment} {d : Draft} {r next : Registry}

theorem path_of_mem_claims {c : Claim} (hc : c ∈ d.claims) : c.path = d.package.importPath := by
  obtain ⟨s, -, hs⟩ := List.mem_flatMap.mp hc
  exact Registry.path_of_mem_serviceClaims hs

theorem not_isTypeOrigin_of_mem_claims {c : Claim} (hc : c ∈ d.claims) :
    ¬ Registry.IsTypeOrigin c.origin := by
  obtain ⟨s, -, hs⟩ := List.mem_flatMap.mp hc
  exact Registry.not_isTypeOrigin_of_mem_serviceClaims hs

theorem claim_eq (env : Environment) (d : Draft) (r : Registry) :
    d.claim env r =
      match (r.seed env.index d.package.importPath).reserveAll d.claims with
      | (next, none) => .ok next
      | (_, some fault) => .error fault := rfl

theorem claim_eq_ok (h : d.claim env r = .ok next) :
    (r.seed env.index d.package.importPath).reserveAll d.claims = (next, none) := by
  rw [claim_eq] at h
  split at h
  case h_1 reached hreached => rw [hreached, Except.ok.inj h]
  case h_2 => exact nomatch h

theorem extends_seed_claim (h : d.claim env r = .ok next) :
    (r.seed env.index d.package.importPath).Extends next := by
  have hext := Registry.extends_reserveAll d.claims (r.seed env.index d.package.importPath)
  rwa [claim_eq_ok h] at hext

theorem extends_claim (h : d.claim env r = .ok next) : r.Extends next :=
  (Registry.extends_seed r env.index d.package.importPath).trans (extends_seed_claim h)

theorem holds_of_claim (h : d.claim env r = .ok next) : ∀ c ∈ d.claims, next.Holds c := by
  have hall := Registry.holds_of_reserveAll (congrArg Prod.snd (claim_eq_ok h))
  rwa [claim_eq_ok h] at hall

/-- A granted draft changes no owner of another package. -/
theorem owner?_claim_of_ne (h : d.claim env r = .ok next) {path : String}
    (hne : d.package.importPath ≠ path) (ident : String) :
    next.owner? path ident = r.owner? path ident := by
  have hclaims : ∀ c ∈ d.claims, c.path ≠ path := fun c hc =>
    path_of_mem_claims hc ▸ hne
  have htypes : ∀ c ∈ Registry.typeClaims env.index d.package.importPath, c.path ≠ path :=
    fun c hc => Registry.path_of_mem_typeClaims hc ▸ hne
  have hframe := Registry.owner?_reserveAll_of_ne hclaims
    (r.seed env.index d.package.importPath) ident
  rw [claim_eq_ok h] at hframe
  rw [hframe, Registry.owner?_seed, Registry.owner?_eq_none_of_path_ne htypes, Option.or_none]

/-- Types stay in front of services: a granted draft offers the types of its package
    before it claims anything there. -/
theorem seeded_claim (hseeded : r.Seeded env.index) (h : d.claim env r = .ok next) :
    next.Seeded env.index := by
  intro path
  by_cases hpath : d.package.importPath = path
  · subst hpath
    refine .inr fun c hc => ?_
    obtain ⟨origin, howner, horigin⟩ := hseeded.seed d.package.importPath c hc
    exact ⟨origin, extends_seed_claim h _ _ _ howner, horigin⟩
  · simp only [owner?_claim_of_ne h hpath]
    exact hseeded path

/-- Registries with the same owners in the package of a draft answer the draft alike. -/
theorem claim_sameAt {s : Registry} (h : Registry.SameAt d.package.importPath r s) :
    (∃ fault, d.claim env r = .error fault ∧ d.claim env s = .error fault) ∨
      (∃ r' s', d.claim env r = .ok r' ∧ d.claim env s = .ok s' ∧
        Registry.SameAt d.package.importPath r' s') := by
  have hseed : Registry.SameAt d.package.importPath
      (r.seed env.index d.package.importPath) (s.seed env.index d.package.importPath) := by
    intro ident
    rw [Registry.owner?_seed, Registry.owner?_seed, h ident]
  have hboth := Registry.reserveAll_sameAt (fun c hc => path_of_mem_claims (d := d) hc) hseed
  rw [claim_eq, claim_eq]
  generalize (r.seed env.index d.package.importPath).reserveAll d.claims = a at hboth
  generalize (s.seed env.index d.package.importPath).reserveAll d.claims = b at hboth
  obtain ⟨r', fault⟩ := a
  obtain ⟨s', fault'⟩ := b
  obtain ⟨hfault, hsame⟩ := hboth
  obtain rfl : fault = fault' := hfault
  cases fault with
  | none => exact .inr ⟨r', s', rfl, rfl, hsame⟩
  | some fault => exact .inl ⟨fault, rfl, rfl⟩

end Draft

/-! ### One target -/

/-- The draft for the first file with the target's name. -/
def draftFor (env : Environment) (target : String) : Traced (Option Draft) :=
  match env.files.find? (·.name == target) with
  | some f => env.draft f
  | none =>
    Traced.fault
      (.malformedDescriptor (target ++ " is listed for generation but missing from proto_file"))

theorem attempt_eq (env : Environment) (r : Registry) (target : String) :
    env.attempt r target = env.draftFor target >>= env.finish r := by
  unfold attempt draftFor
  cases env.files.find? (·.name == target) with
  | some f => exact generateFile_eq env r f
  | none => rfl

/-- The ways a target can end, with the registry that the next target finds. -/
inductive Ends (env : Environment) (r : Registry) (target : String) : Outcome → Registry → Prop
  | generated {d : Draft} {document : Document} {next : Registry}
      (hdraft : (env.draftFor target).outcome = .ok (some d))
      (hclaim : d.claim env r = .ok next)
      (hdocument : (d.document env).outcome = .ok document) :
      Ends env r target (.generated ⟨d.name, document.render⟩) next
  | nothing (hdraft : (env.draftFor target).outcome = .ok none) : Ends env r target .nothing r
  | undrafted {fault : Fault} (hdraft : (env.draftFor target).outcome = .error fault) :
      Ends env r target (.failed fault) r
  | refused {d : Draft} {fault : Fault} (hdraft : (env.draftFor target).outcome = .ok (some d))
      (hclaim : d.claim env r = .error fault) : Ends env r target (.failed fault) r
  | unwritten {d : Draft} {next : Registry} {fault : Fault}
      (hdraft : (env.draftFor target).outcome = .ok (some d))
      (hclaim : d.claim env r = .ok next)
      (hdocument : (d.document env).outcome = .error fault) : Ends env r target (.failed fault) r

theorem finish_refused {env : Environment} {r : Registry} {d : Draft} {fault : Fault}
    (hclaim : d.claim env r = .error fault) :
    (env.finish r (some d)).outcome = .error fault :=
  Traced.outcome_bind_error (by rw [Traced.outcome_ofExcept, hclaim]) _

theorem finish_granted {env : Environment} {r next : Registry} {d : Draft}
    (hclaim : d.claim env r = .ok next) :
    (env.finish r (some d)).outcome =
      (d.document env >>= fun document =>
        pure (some ⟨d.name, document.render⟩, next)).outcome :=
  Traced.outcome_bind_ok (by rw [Traced.outcome_ofExcept, hclaim]) _

theorem settle_ends (env : Environment) (r : Registry) (target : String) :
    Ends env r target (env.settle r target).1.outcome (env.settle r target).2 := by
  unfold settle
  rw [attempt_eq]
  cases hdraft : (env.draftFor target).outcome with
  | error fault =>
    simp only [Traced.outcome_bind_error hdraft]
    exact .undrafted hdraft
  | ok drafted =>
    simp only [Traced.outcome_bind_ok hdraft]
    cases drafted with
    | none => exact .nothing hdraft
    | some d =>
      cases hclaim : d.claim env r with
      | error fault =>
        simp only [finish_refused hclaim]
        exact .refused hdraft hclaim
      | ok next =>
        simp only [finish_granted hclaim]
        cases hdocument : (d.document env).outcome with
        | error fault =>
          simp only [Traced.outcome_bind_error hdocument]
          exact .unwritten hdraft hclaim hdocument
        | ok document =>
          simp only [Traced.outcome_bind_ok hdocument]
          exact .generated hdraft hclaim hdocument

/-! ### Targets one after the other -/

/-- The registry that a target after the given ones finds. -/
def registryAfter (env : Environment) (r : Registry) (targets : List String) : Registry :=
  targets.foldl (fun r target => (env.settle r target).2) r

theorem registryAfter_cons (env : Environment) (r : Registry) (target : String)
    (rest : List String) :
    env.registryAfter r (target :: rest) = env.registryAfter (env.settle r target).2 rest := rfl

/-- What every target leaves true of the registry is true of it at the end. -/
theorem registryAfter_induction {env : Environment} {P : Registry → Prop}
    (hsettle : ∀ r target, P r → P (env.settle r target).2) {r : Registry} (h : P r)
    (targets : List String) : P (env.registryAfter r targets) := by
  induction targets generalizing r with
  | nil => exact h
  | cons target rest ih => exact ih (hsettle r target h)

theorem settleAll_cons (env : Environment) (r : Registry) (target : String)
    (rest : List String) :
    env.settleAll r (target :: rest) =
      (env.settle r target).1 :: env.settleAll (env.settle r target).2 rest := rfl

/-- Environments in which every attempt is the same deal with all targets in the same way. -/
theorem settleAll_congr {env env' : Environment}
    (h : ∀ r target, env.attempt r target = env'.attempt r target) (r : Registry)
    (targets : List String) : env.settleAll r targets = env'.settleAll r targets := by
  have hsettle : ∀ r target, env.settle r target = env'.settle r target := by
    intro r target
    rw [settle, settle, h]
  induction targets generalizing r with
  | nil => rfl
  | cons target rest ih => rw [settleAll_cons, settleAll_cons, hsettle, ih]

theorem settleAll_append (env : Environment) (r : Registry) (before after : List String) :
    env.settleAll r (before ++ after) =
      env.settleAll r before ++ env.settleAll (env.registryAfter r before) after := by
  induction before generalizing r with
  | nil => rfl
  | cons target before ih =>
    rw [List.cons_append, settleAll_cons, ih, settleAll_cons, registryAfter_cons,
      List.cons_append]

theorem length_settleAll (env : Environment) (r : Registry) (targets : List String) :
    (env.settleAll r targets).length = targets.length := by
  induction targets generalizing r with
  | nil => rfl
  | cons target rest ih => rw [settleAll_cons, List.length_cons, List.length_cons, ih]

theorem target_settle (env : Environment) (r : Registry) (target : String) :
    (env.settle r target).1.target = target := by
  simp only [settle]
  split <;> rfl

/-! ### Publications -/

/-- A returned file as what it was made of. -/
structure Publication where
  draft : Draft
  document : Document

def Publication.file (p : Publication) : OutputFile := ⟨p.draft.name, p.document.render⟩

/-- What a target publishes if its claims are granted. -/
def publication? (env : Environment) (target : String) : Option Publication := do
  let d ← (env.draftFor target).outcome.toOption.join
  let document ← (d.document env).outcome.toOption
  some ⟨d, document⟩

theorem publication?_eq_some {env : Environment} {target : String} {d : Draft}
    {document : Document} (hdraft : (env.draftFor target).outcome = .ok (some d))
    (hdocument : (d.document env).outcome = .ok document) :
    env.publication? target = some ⟨d, document⟩ := by
  simp [publication?, hdraft, hdocument, Except.toOption]

/-- What has been published with a target. -/
def publicationOf? (env : Environment) (s : Settled) : Option Publication :=
  match s.outcome with
  | .generated _ => env.publication? s.target
  | _ => none

/-- What a run over targets publishes, in the order of the targets. -/
def published (env : Environment) (r : Registry) (targets : List String) : List Publication :=
  (env.settleAll r targets).filterMap env.publicationOf?

theorem published_cons (env : Environment) (r : Registry) (target : String)
    (rest : List String) :
    env.published r (target :: rest) =
      (env.publicationOf? (env.settle r target).1).toList
        ++ env.published (env.settle r target).2 rest := by
  unfold published
  rw [settleAll_cons, List.filterMap_cons]
  cases env.publicationOf? (env.settle r target).1 <;> rfl

/-- A target publishes something when its claims are granted, and then the registry that it
    leaves has them; otherwise it leaves the registry as it was. -/
theorem publicationOf?_settle (env : Environment) (r : Registry) (target : String) :
    (∃ p, env.publicationOf? (env.settle r target).1 = some p ∧
        env.publication? target = some p ∧
        p.draft.claim env r = .ok (env.settle r target).2 ∧
        (env.settle r target).1.outcome = .generated p.file) ∨
      (env.publicationOf? (env.settle r target).1 = none ∧ (env.settle r target).2 = r ∧
        Response.fileOf? (env.settle r target).1 = none) := by
  have hends := settle_ends env r target
  have htarget := target_settle env r target
  generalize (env.settle r target).1 = s at hends htarget ⊢
  generalize (env.settle r target).2 = next at hends ⊢
  obtain ⟨name, events, outcome⟩ := s
  obtain rfl : name = target := htarget
  cases hends with
  | generated hdraft hclaim hdocument =>
    have hpublication := publication?_eq_some hdraft hdocument
    exact .inl ⟨_, hpublication, hpublication, hclaim, rfl⟩
  | nothing => exact .inr ⟨rfl, rfl, rfl⟩
  | undrafted => exact .inr ⟨rfl, rfl, rfl⟩
  | refused => exact .inr ⟨rfl, rfl, rfl⟩
  | unwritten => exact .inr ⟨rfl, rfl, rfl⟩

theorem publication?_of_settle {env : Environment} {r : Registry} {target : String}
    {p : Publication} (h : env.publicationOf? (env.settle r target).1 = some p) :
    env.publication? target = some p ∧ p.draft.claim env r = .ok (env.settle r target).2 := by
  obtain ⟨q, hq, hpublication, hclaim, -⟩ | ⟨hnone, -⟩ := publicationOf?_settle env r target
  · obtain rfl : p = q := Option.some.inj (h.symm.trans hq)
    exact ⟨hpublication, hclaim⟩
  · exact nomatch h.symm.trans hnone

/-- A target either leaves the registry as it was or has its claims granted. -/
theorem settle_cases (env : Environment) (r : Registry) (target : String) :
    (env.settle r target).2 = r ∨
      ∃ p, env.publicationOf? (env.settle r target).1 = some p ∧
        env.publication? target = some p ∧
        p.draft.claim env r = .ok (env.settle r target).2 := by
  obtain ⟨p, hp, hpublication, hclaim, -⟩ | ⟨-, hsame, -⟩ := publicationOf?_settle env r target
  · exact .inr ⟨p, hp, hpublication, hclaim⟩
  · exact .inl hsame

theorem mem_published_cons {env : Environment} {r : Registry} {target : String}
    {rest : List String} {p : Publication} :
    p ∈ env.published r (target :: rest) ↔
      env.publicationOf? (env.settle r target).1 = some p ∨
        p ∈ env.published (env.settle r target).2 rest := by
  rw [published_cons, List.mem_append, Option.mem_toList]

theorem filterMap_fileOf? (env : Environment) (r : Registry) (targets : List String) :
    (env.settleAll r targets).filterMap Response.fileOf? =
      (env.published r targets).map fun p =>
        ⟨some p.draft.name, none, some p.document.render⟩ := by
  induction targets generalizing r with
  | nil => rfl
  | cons target rest ih =>
    rw [settleAll_cons, List.filterMap_cons, ih, published_cons, List.map_append]
    obtain ⟨p, hp, -, -, houtcome⟩ | ⟨hnone, -, hfile⟩ := publicationOf?_settle env r target
    · have hfile : Response.fileOf? (env.settle r target).1 =
          some ⟨some p.draft.name, none, some p.document.render⟩ := by
        rw [Response.fileOf?, houtcome]
        rfl
      rw [hfile, hp]
      rfl
    · rw [hfile, hnone]
      rfl

end Environment

/-! ### Requests -/

namespace Request

/-- The environment that a request is dealt with in, unless it is turned down as a whole. -/
def environment? (request : Request) : Except Fault Environment := do
  let settings ← Settings.parse request.parameter
  let files ← readFiles request.files
  .ok (Environment.build files settings request.compilerVersion)

theorem environment?_eq_ok_iff {request : Request} {env : Environment} :
    request.environment? = .ok env ↔ ∃ settings files,
      Settings.parse request.parameter = .ok settings ∧ readFiles request.files = .ok files ∧
        Environment.build files settings request.compilerVersion = env := by
  simp only [environment?, Traced.except_bind_eq_ok, Except.ok.injEq, exists_and_left]

/-- How the targets of a request end, in order; none does if the request is turned down. -/
def settled (request : Request) : List Environment.Settled :=
  match request.environment? with
  | .ok env => env.settleAll Registry.empty request.targets
  | .error _ => []

/-- What a request publishes, in the order of its targets. -/
def published (request : Request) : List Environment.Publication :=
  match request.environment? with
  | .ok env => env.published Registry.empty request.targets
  | .error _ => []

theorem generate_outcome {request : Request} {env : Environment}
    (h : request.environment? = .ok env) :
    (generate request).outcome = .ok (Response.ofTargets request.settled) := by
  have hsettled : request.settled = env.settleAll Registry.empty request.targets := by
    rw [settled, h]
  obtain ⟨settings, files, hsettings, hfiles, rfl⟩ := environment?_eq_ok_iff.mp h
  rw [hsettled]
  unfold generate
  rw [hsettings]
  exact Traced.outcome_bind_ok (by rw [Traced.outcome_ofExcept, hfiles]) _

theorem generate_outcome_of_isOk {request : Request} (h : request.environment?.isOk) :
    (generate request).outcome = .ok (Response.ofTargets request.settled) := by
  cases henv : request.environment? with
  | error fault => rw [henv] at h; exact nomatch h
  | ok env => exact generate_outcome henv

theorem files_eq_nil_of_environment? {request : Request} {response : Response} {fault : Fault}
    (h : request.environment? = .error fault)
    (hresponse : (generate request).outcome = .ok response) : response.files = [] := by
  unfold generate at hresponse
  simp only [environment?] at h
  cases hsettings : Settings.parse request.parameter with
  | error fault =>
    rw [hsettings] at hresponse
    obtain rfl : Response.failed fault = response := Except.ok.inj hresponse
    rfl
  | ok settings =>
    rw [hsettings] at h hresponse
    cases hfiles : readFiles request.files with
    | error fault =>
      rw [Traced.outcome_bind_error (by rw [Traced.outcome_ofExcept, hfiles])] at hresponse
      exact nomatch hresponse
    | ok files =>
      rw [hfiles] at h
      exact nomatch h

/-- The files of a response are the published documents, under their names. -/
theorem files_eq_published {request : Request} {response : Response}
    (hresponse : (generate request).outcome = .ok response) :
    response.files = request.published.map fun p =>
      ⟨some p.draft.name, none, some p.document.render⟩ := by
  cases henv : request.environment? with
  | error fault => simp only [published, henv, files_eq_nil_of_environment? henv hresponse,
      List.map_nil]
  | ok env =>
    obtain rfl : Response.ofTargets request.settled = response :=
      Except.ok.inj ((generate_outcome henv).symm.trans hresponse)
    simp only [Response.ofTargets, settled, published, henv]
    exact env.filterMap_fileOf? Registry.empty request.targets

end Request

end GoBindings
