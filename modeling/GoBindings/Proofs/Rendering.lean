/-
  GoBindings/Proofs/Rendering.lean
  ================================
  **Templates that tell methods apart.**

  A template with the method in it gives different names to different methods, however often
  the method occurs and whatever stands between (`render_forMethod_inj`). The names have the
  same length, so the methods have, and then each segment stands at the same place in both
  names. A template without the method gives every method the same name
  (`render_forMethod_of_not_mem`).

  For a service that leaves all runtime names to the template, the placeholder therefore
  decides whether runtime names can repeat.
-/
import GoBindings.Proofs.OperationNames
import Mathlib.Data.List.Flatten

namespace GoBindings

namespace Template

variable {t : Template} {ctx : Context} {m m' : String}

/-- The context with another method. -/
def Context.forMethod (ctx : Context) (m : String) : Context := { ctx with method := m }

theorem renderSegment_forMethod (ctx : Context) (m : String) (segment : Segment) :
    renderSegment (ctx.forMethod m) segment =
      if segment = .placeholder .method then m else renderSegment ctx segment := by
  cases segment with
  | literal text => rfl
  | placeholder p => cases p <;> rfl

/-- Each occurrence of the method adds its length. -/
theorem length_render_forMethod (t : Template) (ctx : Context) (m : String) :
    (t.render (ctx.forMethod m)).length =
      t.segments.count (.placeholder .method) * m.length +
        (t.render (ctx.forMethod "")).length := by
  unfold render
  induction t.segments with
  | nil =>
    rw [List.count_nil, Nat.zero_mul, Nat.zero_add]
    rfl
  | cons segment rest ih =>
    rw [List.map_cons, List.map_cons, String.join_cons, String.join_cons, String.length_append,
      String.length_append, ih, List.count_cons, renderSegment_forMethod, renderSegment_forMethod]
    by_cases h : segment = .placeholder .method
    · rw [if_pos h, if_pos h, if_pos (beq_iff_eq.mpr h), String.length_empty, Nat.add_mul]
      omega
    · rw [if_neg h, if_neg h, if_neg (mt beq_iff_eq.mp h), Nat.add_zero]
      omega

theorem toList_render (t : Template) (ctx : Context) :
    (t.render ctx).toList =
      (t.segments.map fun segment => (renderSegment ctx segment).toList).flatten := by
  rw [render, String.toList_join, List.flatMap_map, List.flatMap_def]

/-- With the method in it, a template gives different names to different methods. -/
theorem render_forMethod_inj (h : .placeholder .method ∈ t.segments) :
    t.render (ctx.forMethod m) = t.render (ctx.forMethod m') ↔ m = m' := by
  constructor
  · intro heq
    have hlength : m.length = m'.length := by
      have hlengths := congrArg String.length heq
      rw [length_render_forMethod t ctx m, length_render_forMethod t ctx m'] at hlengths
      exact Nat.eq_of_mul_eq_mul_left (List.count_pos_iff.mpr h) (Nat.add_right_cancel hlengths)
    -- segment by segment the two names are equally long, so they agree in every segment
    have hsegments :
        (t.segments.map fun segment => (renderSegment (ctx.forMethod m) segment).toList) =
          t.segments.map fun segment => (renderSegment (ctx.forMethod m') segment).toList := by
      rw [List.eq_iff_flatten_eq, ← toList_render, ← toList_render, heq]
      refine ⟨rfl, ?_⟩
      simp only [List.map_map, Function.comp_def, String.length_toList, renderSegment_forMethod,
        apply_ite String.length, hlength]
    have hmethod := List.map_inj_left.mp hsegments _ h
    rw [renderSegment_forMethod, renderSegment_forMethod, if_pos rfl, if_pos rfl] at hmethod
    exact String.toList_inj.mp hmethod
  · rintro rfl
    rfl

/-- Without the method in it, a template gives every method the same name. -/
theorem render_forMethod_of_not_mem (h : .placeholder .method ∉ t.segments) :
    t.render (ctx.forMethod m) = t.render (ctx.forMethod m') := by
  unfold render
  congr 1
  refine List.map_congr_left fun segment hsegment => ?_
  have hne : segment ≠ .placeholder .method := fun heq => h (heq ▸ hsegment)
  rw [renderSegment_forMethod, renderSegment_forMethod, if_neg hne, if_neg hne]

end Template

namespace Service

variable {s : Service} {settings : Settings} {op other : Operation}

theorem operationName_of_none (hop : op.chosenName = none) (other : Operation) :
    s.operationName settings op =
      settings.template.render ((s.templateContext other).forMethod op.methodName) := by
  rw [operationName, hop, Option.getD_none]
  rfl

theorem operationName_inj (h : .placeholder .method ∈ settings.template.segments)
    (hop : op.chosenName = none) (hother : other.chosenName = none) :
    s.operationName settings op = s.operationName settings other ↔
      op.methodName = other.methodName := by
  rw [operationName_of_none hop op, operationName_of_none hother op]
  exact Template.render_forMethod_inj h

theorem operationName_of_not_mem (h : .placeholder .method ∉ settings.template.segments)
    (hop : op.chosenName = none) (hother : other.chosenName = none) :
    s.operationName settings op = s.operationName settings other := by
  rw [operationName_of_none hop op, operationName_of_none hother op]
  exact Template.render_forMethod_of_not_mem h

/-- Where all names come from a template with the method in it, no runtime name repeats. -/
theorem not_repeated_of_mem (h : .placeholder .method ∈ settings.template.segments)
    (hmethods : (s.operations.map (·.methodName)).Nodup)
    (hchosen : ∀ op ∈ s.operations, op.chosenName = none) (service name first second : String) :
    (s.resolve settings).outcome ≠ .error (.duplicateOperationName service name first second) := by
  intro herror
  obtain ⟨before, op, after, hops, -, hop⟩ := resolve_eq_error_iff.mp herror
  cases hop with
  | repeated hne hfirst =>
    rename_i earlier
    have hearlier : earlier ∈ before.filter
        (s.operationName settings · == s.operationName settings op) :=
      hfirst ▸ List.mem_singleton_self earlier
    rw [List.mem_filter, beq_iff_eq] at hearlier
    obtain ⟨hmem, hname⟩ := hearlier
    -- the two names come from one template, so the methods would have one name
    rw [hops] at hmethods hchosen
    have hmethod := (operationName_inj h (hchosen earlier (List.mem_append_left _ hmem))
      (hchosen op (by simp))).mp hname
    rw [List.map_append, List.map_cons, List.nodup_append] at hmethods
    exact hmethods.2.2 _ (List.mem_map_of_mem hmem) _ List.mem_cons_self hmethod

/-- Where all names come from a template without the method, the first two operations already
    cannot be named together. -/
theorem resolve_of_not_mem {first second : Operation} {rest : List Operation}
    (h : .placeholder .method ∉ settings.template.segments)
    (hops : s.operations = first :: second :: rest)
    (hchosen : ∀ op ∈ s.operations, op.chosenName = none) :
    (s.resolve settings).outcome =
      .error (if s.operationName settings first = "" then
          .invalidOption "operation_name_template"
            (Text.quoted settings.template.source ++ " renders an empty operation name for "
              ++ s.fullName ++ "." ++ first.methodName)
        else .duplicateOperationName s.fullName (s.operationName settings first)
          first.methodName second.methodName) := by
  rw [resolve_eq_error_iff]
  by_cases hempty : s.operationName settings first = ""
  · rw [if_pos hempty]
    exact ⟨[], first, second :: rest, hops, nameable_nil _, .empty hempty⟩
  · rw [if_neg hempty]
    have hsame : s.operationName settings first = s.operationName settings second :=
      operationName_of_not_mem h (hchosen _ (by simp [hops])) (hchosen _ (by simp [hops]))
    refine ⟨[first], second, rest, hops, ?_, ?_⟩
    · exact nameable_concat_iff.mpr ⟨nameable_nil _, hempty, List.not_mem_nil,
        List.not_mem_nil⟩
    · rw [hsame] at hempty ⊢
      refine .repeated hempty ?_
      rw [List.filter_singleton, hsame, beq_self_eq_true]
      rfl

/-- Whether the method is in the template decides whether runtime names repeat, where the template
    gives all of them. With it they never do. Without it naming fails: all operations have the same
    runtime name, which is empty or repeated. -/
theorem method_decides (s : Service) (settings : Settings) (hsize : 2 ≤ s.operations.length)
    (hmethods : (s.operations.map (·.methodName)).Nodup)
    (hchosen : ∀ op ∈ s.operations, op.chosenName = none) :
    (.placeholder .method ∈ settings.template.segments →
        ∀ service name first second, (s.resolve settings).outcome ≠
          .error (.duplicateOperationName service name first second)) ∧
      (.placeholder .method ∉ settings.template.segments →
        ∃ first second rest rendering, s.operations = first :: second :: rest ∧
          (∀ op ∈ s.operations, settings.template.render (s.templateContext op) = rendering) ∧
          (s.resolve settings).outcome =
            .error (if rendering = "" then
                .invalidOption "operation_name_template"
                  (Text.quoted settings.template.source ++ " renders an empty operation name for "
                    ++ s.fullName ++ "." ++ first.methodName)
              else .duplicateOperationName s.fullName rendering first.methodName
                second.methodName)) := by
  refine ⟨fun h => not_repeated_of_mem h hmethods hchosen, fun h => ?_⟩
  obtain ⟨first, second, rest, hops⟩ : ∃ first second rest,
      s.operations = first :: second :: rest := by
    match hops : s.operations with
    | [] | [_] => simp [hops] at hsize
    | first :: second :: rest => exact ⟨first, second, rest, rfl⟩
  refine ⟨first, second, rest, s.operationName settings first, hops, fun op hop => ?_,
    resolve_of_not_mem h hops hchosen⟩
  have hfirst := hchosen first (by simp [hops])
  rw [← operationName_of_not_mem h (hchosen op hop) hfirst, operationName, hchosen op hop,
    Option.getD_none]

/-- Two methods that leave their runtime names to the template. -/
def twoMethods : Service where
  fullName := "oms.v1.Orders"
  name := "Orders"
  package := "oms.v1"
  file := "oms/v1/oms.proto"
  chosenName := none
  operations :=
    [⟨"Create", ".oms.v1.Order", ".oms.v1.Order", none⟩,
      ⟨"Cancel", ".oms.v1.Order", ".oms.v1.Order", none⟩]

/-- The method twice, once in front of text that could be a part of it. -/
def framedMethod : Settings :=
  { template := ⟨"\x7bmethod\x7dCreate\x7bmethod\x7d",
      [.placeholder .method, .literal "Create", .placeholder .method]⟩ }

def serviceOnly : Settings :=
  { template := ⟨"\x7bservice\x7d", [.placeholder .service]⟩ }

theorem method_decides_twoMethods :
    Template.parse framedMethod.template.source = .ok framedMethod.template ∧
      Template.parse serviceOnly.template.source = .ok serviceOnly.template ∧
      (∀ service name first second, (twoMethods.resolve framedMethod).outcome ≠
        .error (.duplicateOperationName service name first second)) ∧
      ∃ first second rest rendering, twoMethods.operations = first :: second :: rest ∧
        (∀ op ∈ twoMethods.operations,
          serviceOnly.template.render (twoMethods.templateContext op) = rendering) ∧
        (twoMethods.resolve serviceOnly).outcome =
          .error (if rendering = "" then
              .invalidOption "operation_name_template"
                (Text.quoted serviceOnly.template.source ++ " renders an empty operation name for "
                  ++ twoMethods.fullName ++ "." ++ first.methodName)
            else .duplicateOperationName twoMethods.fullName rendering first.methodName
              second.methodName) :=
  ⟨by decide, by decide,
    (method_decides twoMethods framedMethod (by decide) (by decide) (by decide)).1 (by decide),
    (method_decides twoMethods serviceOnly (by decide) (by decide) (by decide)).2 (by decide)⟩

end Service

end GoBindings
