/-
  GoBindings/Proofs/Faults.lean
  =============================
  **Which step a fault comes from.**

  Each step of generation has faults of its own (`FailsWith`). Collecting services fails over
  what the declarations lack or cannot be served; placing the output over the module
  directory; naming operations over a runtime name or two Go methods; claiming over a
  collision; writing over a type that is not declared. So the fault of a target tells the
  step, and `failed_module_iff` reads one of them back exactly.
-/
import GoBindings.Proofs.Collecting
import GoBindings.Proofs.OperationNames

namespace GoBindings

variable {α β : Type}

/-! ### Kinds of faults -/

namespace Fault

/-- The declarations lack something, or a method streams. -/
inductive IsUnservable : Fault → Prop
  | malformed (what : String) : IsUnservable (.malformedDescriptor what)
  | streaming (method : String) (kind : Streaming) :
      IsUnservable (.unsupportedMethodKind method kind)

/-- A runtime name is empty or taken. -/
inductive IsRuntimeName : Fault → Prop
  | empty (reason : String) : IsRuntimeName (.invalidOption Template.key reason)
  | repeated (service name first second : String) :
      IsRuntimeName (.duplicateOperationName service name first second)

inductive IsCollision : Fault → Prop
  | intro (ident first second : String) : IsCollision (.identifierCollision ident first second)

inductive IsUnresolvable : Fault → Prop
  | intro (typeName referrer : String) : IsUnresolvable (.unresolvableType typeName referrer)

/-- The output lies outside the module directory. -/
inductive IsModule : Fault → Prop
  | intro (reason : String) : IsModule (.invalidOption "module" reason)

/-- The two options with faults of their own are told apart by their keys. -/
theorem IsModule.not_isRuntimeName {fault : Fault} (h : fault.IsModule) :
    ¬ fault.IsRuntimeName := by
  obtain ⟨reason⟩ := h
  generalize hfault : Fault.invalidOption "module" reason = fault
  rintro (⟨other⟩ | ⟨service, name, first, second⟩)
  · have hkey : "module" = Template.key := (Fault.invalidOption.inj hfault).1
    exact absurd hkey (by decide)
  · exact nomatch hfault

end Fault

/-- Every fault that an outcome can be is of a kind. -/
def FailsWith (p : Fault → Prop) (e : Except Fault α) : Prop :=
  ∀ fault, e = .error fault → p fault

namespace FailsWith

variable {p q : Fault → Prop} {x : Except Fault α} {f : α → Except Fault β}

theorem ok (a : α) : FailsWith p (.ok a) := fun _ h => nomatch h

theorem error {fault : Fault} (h : p fault) : FailsWith p (.error fault : Except Fault α) :=
  fun _ hfault => Except.error.inj hfault ▸ h

theorem bind (hx : FailsWith p x) (hf : ∀ a, FailsWith p (f a)) : FailsWith p (x >>= f) := by
  cases x with
  | error fault => exact error (hx fault rfl)
  | ok a => exact hf a

theorem bind_outcome {t : Traced α} {g : α → Traced β} (ht : FailsWith p t.outcome)
    (hg : ∀ a, FailsWith p (g a).outcome) : FailsWith p (t >>= g).outcome := by
  rw [Traced.outcome_bind]
  exact bind ht hg

theorem mono (h : FailsWith p x) (hpq : ∀ fault, p fault → q fault) : FailsWith q x :=
  fun fault hfault => hpq fault (h fault hfault)

end FailsWith

/-! ### Collecting -/

namespace Service

theorem isUnservable_of_rejected {f : Descriptor.File} {index : Nat} {d : Descriptor.Service}
    {fault : Fault} (h : d.Rejected f index fault) : fault.IsUnservable := by
  cases h with
  | nameless _ => exact .malformed _
  | method _ _ _ hm =>
    cases hm with
    | nameless _ => exact .malformed _
    | repeated _ _ => exact .malformed _
    | inputless _ _ _ => exact .malformed _
    | outputless _ _ _ _ => exact .malformed _
    | streaming _ _ _ _ _ => exact .streaming _ _

theorem failsWith_collect (custom : CustomOptions) (f : Descriptor.File) :
    FailsWith Fault.IsUnservable (collect custom f).outcome := by
  intro fault hfault
  obtain ⟨before, d, after, -, -, hd⟩ := collect_eq_error_iff.mp hfault
  exact isUnservable_of_rejected hd

/-! ### Naming -/

/-- Naming fails over a runtime name or over two Go methods. -/
abbrev NamingFault (fault : Fault) : Prop := fault.IsRuntimeName ∨ fault.IsCollision

theorem failsWith_resolve (s : Service) (settings : Settings) :
    FailsWith NamingFault (s.resolve settings).outcome := by
  intro fault hfault
  obtain ⟨before, op, after, -, -, hop⟩ := resolve_eq_error_iff.mp hfault
  cases hop with
  | empty _ => exact .inl (.empty _)
  | repeated _ _ => exact .inl (.repeated _ _ _ _)
  | clash _ _ _ => exact .inr (.intro _ _ _)

end Service

/-! ### Claiming -/

namespace Registry

theorem failsWith_reserve (r : Registry) (c : Claim) :
    FailsWith Fault.IsCollision (r.reserve c) := by
  unfold reserve
  split
  · exact .ok _
  · split
    · exact .ok _
    · exact .error (.intro _ _ _)

theorem isCollision_of_reserveAll {r : Registry} {claims : List Claim} {fault : Fault}
    (h : (r.reserveAll claims).2 = some fault) : fault.IsCollision := by
  induction claims generalizing r with
  | nil => exact nomatch h
  | cons c rest ih =>
    cases hc : r.reserve c with
    | error refusal =>
      rw [reserveAll_cons_error hc] at h
      exact Option.some.inj h ▸ failsWith_reserve r c refusal hc
    | ok next =>
      rw [reserveAll_cons_ok hc] at h
      exact ih h

end Registry

/-! ### Writing -/

theorem TypeMapper.failsWith_map (t : TypeMapper) (imports : Go.Imports)
    (typeName referrer : String) :
    FailsWith Fault.IsUnresolvable (t.map imports typeName referrer).outcome := by
  unfold TypeMapper.map
  split
  · unfold TypeMapper.write
    split
    · exact .ok _
    · exact .bind_outcome (.ok ()) fun _ => .ok _
  · exact .error (.intro _ _)

namespace Environment

variable {env : Environment} {r : Registry} {target : String}

theorem failsWith_bindOperations (mapper : TypeMapper) (s : Service) (imports : Go.Imports)
    (ops : List NamedOperation) :
    FailsWith Fault.IsUnresolvable (bindOperations mapper s imports ops).outcome := by
  induction ops generalizing imports with
  | nil => exact .ok _
  | cons op rest ih =>
    exact .bind_outcome (mapper.failsWith_map _ _ _) fun _ =>
      .bind_outcome (mapper.failsWith_map _ _ _) fun output =>
        .bind_outcome (ih output.2) fun _ => .ok _

theorem failsWith_bindServices (mapper : TypeMapper) (imports : Go.Imports)
    (services : List NamedService) :
    FailsWith Fault.IsUnresolvable (bindServices mapper imports services).outcome := by
  induction services generalizing imports with
  | nil => exact .ok _
  | cons s rest ih =>
    exact .bind_outcome (failsWith_bindOperations mapper s.service imports s.operations)
      fun bound => .bind_outcome (.ok ()) fun _ => .bind_outcome (ih bound.2) fun _ => .ok _

theorem failsWith_nameServices (settings : Settings) (services : List Service) :
    FailsWith Service.NamingFault (nameServices settings services).outcome := by
  induction services with
  | nil => exact .ok []
  | cons s rest ih =>
    exact .bind_outcome (s.failsWith_resolve settings) fun _ => .bind_outcome ih fun _ => .ok _

/-! ### One target -/

namespace Draft

theorem failsWith_claim (env : Environment) (d : Draft) (r : Registry) :
    FailsWith Fault.IsCollision (d.claim env r) := by
  intro fault h
  rw [claim_eq] at h
  split at h
  case h_1 => exact nomatch h
  case h_2 refusal hreached =>
    exact Except.error.inj h ▸ Registry.isCollision_of_reserveAll (congrArg Prod.snd hreached)

theorem failsWith_document (env : Environment) (d : Draft) :
    FailsWith Fault.IsUnresolvable (d.document env).outcome :=
  .bind_outcome (failsWith_bindServices _ _ d.services) fun _ => .ok _

end Draft

theorem failsWith_finish (env : Environment) (r : Registry) (drafted : Option Draft) :
    FailsWith (fun fault => fault.IsCollision ∨ fault.IsUnresolvable)
      (env.finish r drafted).outcome := by
  cases drafted with
  | none => exact .ok _
  | some d =>
    exact .bind_outcome ((d.failsWith_claim env r).mono fun _ => .inl) fun _ =>
      .bind_outcome ((d.failsWith_document env).mono fun _ => .inr) fun _ => .ok _

theorem settle_failed_iff {fault : Fault} :
    (env.settle r target).1.outcome = .failed fault ↔
      (env.attempt r target).outcome = .error fault := by
  unfold settle
  dsimp only
  split
  case h_1 hok => rw [hok]; exact ⟨(nomatch ·), (nomatch ·)⟩
  case h_2 hok => rw [hok]; exact ⟨(nomatch ·), (nomatch ·)⟩
  case h_3 found hfound =>
    rw [hfound]
    exact ⟨fun h => Outcome.failed.inj h ▸ rfl, fun h => Except.error.inj h ▸ rfl⟩

/-- A target fails over the module directory exactly if it has services to generate for and
    its output cannot be placed. -/
theorem failed_module_iff (env : Environment) (r : Registry) (target : String) :
    (∃ reason, (env.settle r target).1.outcome = .failed (.invalidOption "module" reason)) ↔
      ∃ f services, env.files.find? (·.name == target) = some f ∧
        (Service.collect env.custom f).outcome = .ok services ∧ services ≠ [] ∧
        ∃ reason, Placement.outputName f.name (env.sourcePackage f) (env.outputPackage f)
          env.settings = .error (.invalidOption "module" reason) := by
  constructor
  · rintro ⟨reason, h⟩
    rw [settle_failed_iff, attempt_eq, Traced.outcome_bind_eq_error] at h
    rcases h with hdraft | ⟨drafted, -, hfinish⟩
    · unfold draftFor at hdraft
      split at hdraft
      case h_2 => cases hdraft
      case h_1 f hfile =>
        rw [draft, Traced.outcome_bind_eq_error] at hdraft
        rcases hdraft with hcollect | ⟨services, hcollect, hdraft⟩
        · cases Service.failsWith_collect env.custom f _ hcollect
        · split at hdraft
          case isTrue => cases hdraft
          case isFalse hne =>
            rw [List.isEmpty_iff] at hne
            rw [Traced.outcome_bind_eq_error] at hdraft
            rcases hdraft with hplace | ⟨name, -, hdraft⟩
            · exact ⟨f, services, hfile, hcollect, hne, _, hplace⟩
            · rw [Traced.outcome_bind_eq_error] at hdraft
              rcases hdraft with hnames | ⟨named, -, hdraft⟩
              · rcases failsWith_nameServices _ _ _ hnames with hfault | hfault
                · exact absurd hfault (Fault.IsModule.intro reason).not_isRuntimeName
                · cases hfault
              · cases hdraft
    · rcases failsWith_finish env r drafted _ hfinish with hfault | hfault <;> cases hfault
  · rintro ⟨f, services, hfile, hcollect, hne, reason, hplace⟩
    have hdraft : (env.draft f).outcome = .error (.invalidOption "module" reason) := by
      rw [draft, Traced.outcome_bind_ok hcollect,
        if_neg (by rwa [List.isEmpty_iff]), Traced.outcome_bind_error hplace]
    refine ⟨reason, settle_failed_iff.mpr ?_⟩
    rw [attempt_eq, draftFor, hfile]
    exact Traced.outcome_bind_error hdraft _

end Environment

end GoBindings
