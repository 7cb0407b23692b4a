/-
  GoBindings/Proofs/Reports.lean
  ==============================
  **What a run says about each target.**

  A target gives a file, gives nothing or fails, and a run says so in three places: the files
  of the response, its error text and the log. While a target is dealt with, nothing of the
  highest level is logged (`Quiet`, kept by every step), so the log has one such event for each
  target that fails and no other (`Request.errors_generate`). Hence the three places tell one
  story.

  A target gives nothing exactly if the first file of its name declares no services
  (`settle_nothing_iff`).
-/
import GoBindings.Proofs.Independence

namespace GoBindings

variable {α β : Type}

/-! ### Computations that report no error -/

/-- No event is an error. -/
def Traced.Quiet (x : Traced α) : Prop := ∀ e ∈ x.events, e.level ≠ .error

namespace Traced.Quiet

theorem pure (a : α) : Quiet (Pure.pure a : Traced α) := fun _ he => absurd he List.not_mem_nil

theorem ofExcept (x : Except Fault α) : Quiet (Traced.ofExcept x) :=
  fun _ he => absurd he List.not_mem_nil

theorem fault (f : Fault) : Quiet (Traced.fault f : Traced α) :=
  fun _ he => absurd he List.not_mem_nil

theorem report {e : Event} (h : e.level ≠ .error) : Quiet (Traced.report e) := by
  intro found hfound
  rwa [List.mem_singleton.mp hfound]

theorem bind {x : Traced α} {f : α → Traced β} (hx : Quiet x) (hf : ∀ a, Quiet (f a)) :
    Quiet (x >>= f) := by
  obtain ⟨events, outcome⟩ := x
  cases outcome with
  | error fault => exact hx
  | ok a =>
    intro e he
    rcases List.mem_append.mp he with hfirst | hlater
    · exact hx e hfirst
    · exact hf a e hlater

end Traced.Quiet

open Traced (Quiet)

/-! ### Each step -/

namespace Service

variable {custom : CustomOptions} {settings : Settings}

theorem quiet_reportUnavailable (f : Descriptor.File) : Quiet (reportUnavailable custom f) := by
  unfold reportUnavailable
  split
  · exact .report nofun
  · exact .pure ()

theorem quiet_reportEmpty (s : Service) : Quiet (reportEmpty s) := by
  unfold reportEmpty
  split
  · exact .report nofun
  · exact .pure ()

theorem quiet_collectFrom (f : Descriptor.File) (index : Nat)
    (declared : List Descriptor.Service) : Quiet (collectFrom custom f index declared) := by
  induction declared generalizing index with
  | nil => exact .pure []
  | cons d rest ih =>
    exact .bind (.ofExcept _) fun s => .bind (quiet_reportEmpty s) fun _ =>
      .bind (ih (index + 1)) fun _ => .pure _

theorem quiet_collect (f : Descriptor.File) : Quiet (collect custom f) :=
  .bind (quiet_reportUnavailable f) fun _ => .bind (quiet_collectFrom f 0 f.services) fun _ =>
    .bind (.report nofun) fun _ => .pure _

theorem quiet_nameOperations (s : Service) (taken : Taken) (ops : List Operation) :
    Quiet (s.nameOperations settings taken ops) := by
  induction ops generalizing taken with
  | nil => exact .pure []
  | cons op rest ih =>
    exact .bind (.ofExcept _) fun named => .bind (.report nofun) fun _ =>
      .bind (ih named.2) fun _ => .pure _

theorem quiet_resolve (s : Service) : Quiet (s.resolve settings) :=
  .bind (quiet_nameOperations s {} s.operations) fun _ => .pure _

end Service

theorem TypeMapper.quiet_map (t : TypeMapper) (imports : Go.Imports)
    (typeName referrer : String) : Quiet (t.map imports typeName referrer) := by
  unfold TypeMapper.map
  split
  · unfold TypeMapper.write
    split
    · exact .pure _
    · exact .bind (.report nofun) fun _ => .pure _
  · exact .fault _

namespace Environment

variable {env : Environment} {r : Registry} {target : String}

theorem quiet_nameServices (settings : Settings) (services : List Service) :
    Quiet (nameServices settings services) := by
  induction services with
  | nil => exact .pure []
  | cons s rest ih => exact .bind s.quiet_resolve fun _ => .bind ih fun _ => .pure _

theorem quiet_bindOperations (mapper : TypeMapper) (s : Service) (imports : Go.Imports)
    (ops : List NamedOperation) : Quiet (bindOperations mapper s imports ops) := by
  induction ops generalizing imports with
  | nil => exact .pure _
  | cons op rest ih =>
    exact .bind (mapper.quiet_map _ _ _) fun _ => .bind (mapper.quiet_map _ _ _) fun output =>
      .bind (ih output.2) fun _ => .pure _

theorem quiet_bindServices (mapper : TypeMapper) (imports : Go.Imports)
    (services : List NamedService) : Quiet (bindServices mapper imports services) := by
  induction services generalizing imports with
  | nil => exact .pure _
  | cons s rest ih =>
    exact .bind (quiet_bindOperations mapper s.service imports s.operations) fun bound =>
      .bind (.report nofun) fun _ => .bind (ih bound.2) fun _ => .pure _

theorem quiet_generateFile (env : Environment) (r : Registry) (f : Descriptor.File) :
    Quiet (env.generateFile r f) := by
  refine .bind (Service.quiet_collect f) fun services => ?_
  split
  · exact .bind (.report nofun) fun _ => .pure _
  · refine .bind ?_ fun _ => .pure _
    exact .bind (.ofExcept _) fun _ => .bind (quiet_nameServices _ _) fun _ =>
      .bind (.ofExcept _) fun _ => .bind (quiet_bindServices _ _ _) fun _ => .pure _

theorem quiet_attempt (env : Environment) (r : Registry) (target : String) :
    Quiet (env.attempt r target) := by
  unfold attempt
  split
  · exact quiet_generateFile env r _
  · exact .fault _

/-! ### One target -/

/-- The target and the fault that it failed over, if it failed. -/
def Settled.failure? (s : Settled) : Option (String × Fault) :=
  match s.outcome with
  | .failed fault => some (s.target, fault)
  | _ => none

/-- The errors among the events of a target are one for its failure, if it fails. -/
theorem errors_settle (env : Environment) (r : Registry) (target : String) :
    (env.settle r target).1.events.filter (·.level = .error) =
      (env.settle r target).1.failure?.toList.map fun x => .generationFailed x.1 x.2 := by
  have hquiet : (env.attempt r target).events.filter (·.level = .error) = [] := by
    refine List.filter_eq_nil_iff.mpr fun e he => ?_
    rw [decide_eq_true_eq]
    exact quiet_attempt env r target e he
  unfold settle
  dsimp only
  split
  · rw [List.filter_append, hquiet]
    rfl
  · exact hquiet
  · rw [List.filter_append, hquiet]
    rfl

theorem services_of_draft_none {f : Descriptor.File} (h : (env.draft f).outcome = .ok none) :
    f.services = [] := by
  obtain ⟨services, hservices, h⟩ := Traced.outcome_bind_eq_ok.mp h
  split at h
  case isTrue hempty =>
    rwa [Service.collect_eq hservices, List.isEmpty_map, List.isEmpty_iff] at hempty
  case isFalse =>
    obtain ⟨name, -, h⟩ := Traced.outcome_bind_eq_ok.mp h
    obtain ⟨named, -, h⟩ := Traced.outcome_bind_eq_ok.mp h
    exact nomatch Except.ok.inj h

theorem draftFor_none_iff :
    (env.draftFor target).outcome = .ok none ↔
      ∃ f, env.files.find? (·.name == target) = some f ∧ f.services = [] := by
  unfold draftFor
  constructor
  · intro h
    split at h
    case h_1 f hfile => exact ⟨f, hfile, services_of_draft_none h⟩
    case h_2 => exact nomatch h
  · rintro ⟨f, hfile, hservices⟩
    rw [hfile]
    exact draft_of_services_eq_nil hservices

theorem settle_nothing_iff :
    (env.settle r target).1.outcome = .nothing ↔
      ∃ f, env.files.find? (·.name == target) = some f ∧ f.services = [] := by
  rw [← draftFor_none_iff]
  have hends := settle_ends env r target
  generalize (env.settle r target).1.outcome = outcome at hends ⊢
  generalize (env.settle r target).2 = next at hends
  cases hends with
  | nothing hdraft => exact ⟨fun _ => hdraft, fun _ => rfl⟩
  | generated hdraft => simp [hdraft]
  | undrafted hdraft => simp [hdraft]
  | refused hdraft => simp [hdraft]
  | unwritten hdraft => simp [hdraft]

/-! ### Targets one after the other -/

theorem targets_settleAll (env : Environment) (r : Registry) (targets : List String) :
    (env.settleAll r targets).map (·.target) = targets := by
  induction targets generalizing r with
  | nil => rfl
  | cons target rest ih => rw [settleAll_cons, List.map_cons, target_settle, ih]

theorem mem_settleAll {targets : List String} {s : Settled} (hs : s ∈ env.settleAll r targets) :
    ∃ reached target, target ∈ targets ∧ s = (env.settle reached target).1 := by
  induction targets generalizing r with
  | nil => exact absurd hs List.not_mem_nil
  | cons target rest ih =>
    rcases List.mem_cons.mp hs with rfl | hrest
    · exact ⟨r, target, List.mem_cons_self, rfl⟩
    · obtain ⟨reached, later, hlater, hsame⟩ := ih hrest
      exact ⟨reached, later, List.mem_cons_of_mem target hlater, hsame⟩

theorem errors_settleAll (env : Environment) (r : Registry) (targets : List String) :
    ((env.settleAll r targets).flatMap (·.events)).filter (·.level = .error) =
      ((env.settleAll r targets).filterMap Settled.failure?).map
        fun x => .generationFailed x.1 x.2 := by
  induction targets generalizing r with
  | nil => rfl
  | cons target rest ih =>
    rw [settleAll_cons, List.flatMap_cons, List.filter_append, errors_settle, ih,
      List.filterMap_cons]
    cases (env.settle r target).1.failure? <;> rfl

end Environment

/-! ### The response -/

open Environment (Settled)

theorem Response.failureLine?_eq (s : Settled) :
    failureLine? s = s.failure?.map fun x => x.1 ++ ": " ++ x.2.message := by
  unfold failureLine? Settled.failure?
  cases s.outcome <;> rfl

theorem Response.failureText_map (line : α → String) (failures : List α) :
    failureText (failures.map line) =
      if failures.isEmpty then none else some ("\n".intercalate (failures.map line)) := by
  cases failures <;> rfl

namespace Request

variable {request : Request} {env : Environment}

/-- The targets that failed, in order, with what they failed over. -/
def failures (request : Request) : List (String × Fault) :=
  request.settled.filterMap Settled.failure?

theorem errors_generate (henv : request.environment? = .ok env) :
    (generate request).events.filter (·.level = .error) =
      request.failures.map fun x => .generationFailed x.1 x.2 := by
  have hrun : request.settled = env.settleAll Registry.empty request.targets := by
    rw [settled, henv]
  obtain ⟨settings, files, hsettings, hfiles, rfl⟩ := environment?_eq_ok_iff.mp henv
  rw [failures, hrun, ← Environment.errors_settleAll]
  unfold generate
  rw [hsettings]
  simp only [hfiles]
  have hskipped : ∀ skipped : List (String × Rejection),
      (skipped.map fun x => Event.couldNotIndex x.1 x.2).filter (·.level = .error) = [] := by
    intro skipped
    rw [List.filter_map, List.map_eq_nil_iff, List.filter_eq_nil_iff]
    intro x _ herror
    cases herror
  change (_ ++ _ :: _ : List Event).filter _ = _
  rw [List.filter_append, hskipped]
  rfl

/-- Each entry of the targets ends in one way: with a file, with nothing, which is so exactly if
    the first file of its name is there and declares no services, or with a failure. The response
    has the files in the order of the targets, and as its error a line for each failure. The errors
    in the log are the failures, one for one, with the same target, code and message. -/
theorem targets_accounted (henv : request.environment? = .ok env) :
    ∃ response, (generate request).outcome = .ok response ∧
      request.settled.map (·.target) = request.targets ∧
      (∀ s ∈ request.settled, s.outcome = .nothing ↔
        ∃ f, env.files.find? (·.name == s.target) = some f ∧ f.services = []) ∧
      response.files = request.settled.filterMap (fun s =>
        match s.outcome with
        | .generated file => some ⟨some file.name, none, some file.content⟩
        | _ => none) ∧
      (response.error = none ↔ request.failures = []) ∧
      (request.failures ≠ [] → response.error =
        some ("\n".intercalate (request.failures.map fun x => x.1 ++ ": " ++ x.2.message))) ∧
      ((generate request).events.filter (·.level = .error)).map (fun e => (e.text, e.fields)) =
        request.failures.map fun x => ("Generation failed",
          [("file", .shown x.1), ("code", .quoted x.2.code), ("error", .shown x.2.message)]) := by
  have hrun : request.settled = env.settleAll Registry.empty request.targets := by
    rw [settled, henv]
  have herror : (Response.ofTargets request.settled).error =
      if request.failures.isEmpty then none
      else some ("\n".intercalate (request.failures.map fun x => x.1 ++ ": " ++ x.2.message)) := by
    rw [← Response.failureText_map, failures, List.map_filterMap]
    simp only [Response.ofTargets, funext Response.failureLine?_eq]
  refine ⟨_, generate_outcome henv, ?_, ?_, rfl, ?_, ?_, ?_⟩
  · rw [hrun]
    exact Environment.targets_settleAll env _ _
  · intro s hs
    obtain ⟨reached, target, -, rfl⟩ := Environment.mem_settleAll (hrun ▸ hs)
    rw [Environment.target_settle]
    exact Environment.settle_nothing_iff
  · rw [herror]
    cases request.failures <;> simp
  · intro hfailed
    rw [herror, if_neg (by rwa [List.isEmpty_iff])]
  · rw [errors_generate henv, List.map_map]
    rfl

/-- A shop, a file without services, and a file whose service takes a type that is not there. -/
def mixedBag : Request where
  targets := ["lost.proto", "shop.proto", "types.proto", "broken.proto", "shop.proto"]
  parameter := none
  compilerVersion := none
  files :=
    [sampleFile "shop.proto" "shop" "example.com/shop" ["Cart"]
        [("Shop", [("Order", ".shop.Cart")])],
      sampleFile "types.proto" "types" "example.com/types" ["Item"] [],
      sampleFile "broken.proto" "broken" "example.com/broken" []
        [("Till", [("Pay", ".broken.Coin")])]]

/-- Two targets fail, one is silent, and the one that is asked for twice gives two files. -/
theorem targets_accounted_mixedBag :
    ∃ env response, mixedBag.environment? = .ok env ∧
      (generate mixedBag).outcome = .ok response ∧
      response.files.map (·.name) =
        [some "example.com/shop/shop_nexus.pb.go", some "example.com/shop/shop_nexus.pb.go"] ∧
      mixedBag.failures =
        [("lost.proto", .malformedDescriptor
            "lost.proto is listed for generation but missing from proto_file"),
          ("broken.proto", .unresolvableType ".broken.Coin" "broken.Till.Pay")] ∧
      response.error = some ("lost.proto: malformed descriptor: "
        ++ "lost.proto is listed for generation but missing from proto_file\n"
        ++ "broken.proto: unresolvable type .broken.Coin referenced by broken.Till.Pay") ∧
      ((generate mixedBag).events.filter (·.level = .error)).length = 2 := by
  have hfailures : mixedBag.failures =
      [("lost.proto", .malformedDescriptor
          "lost.proto is listed for generation but missing from proto_file"),
        ("broken.proto", .unresolvableType ".broken.Coin" "broken.Till.Pay")] := by
    decide +kernel
  have hfiles : (mixedBag.settled.filterMap Response.fileOf?).map (·.name) =
      [some "example.com/shop/shop_nexus.pb.go", some "example.com/shop/shop_nexus.pb.go"] := by
    decide +kernel
  cases henv : mixedBag.environment? with
  | error fault =>
    rw [failures, settled, henv] at hfailures
    cases hfailures
  | ok env =>
    obtain ⟨response, hresponse, -, -, hresponseFiles, -, herror, hevents⟩ :=
      targets_accounted henv
    have hcount := congrArg List.length hevents
    rw [List.length_map, List.length_map, hfailures] at hcount
    refine ⟨env, response, rfl, hresponse, ?_, hfailures, ?_, hcount⟩
    · rw [hresponseFiles]
      exact hfiles
    · rw [herror (by rw [hfailures]; exact List.cons_ne_nil _ _), hfailures]
      decide +kernel

end Request

end GoBindings
