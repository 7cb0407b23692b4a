/-
  GoBindings/Proofs/OperationNames.lean
  =====================================
  **Which operations can be named together.**

  A service gets its names exactly if no operation has an empty runtime name and no two
  have the same runtime name or the same Go name (`Nameable`). Otherwise the first
  operation that does not go with those before it is at fault (`Unnameable`).

  Operations are named one after the other, and what the earlier ones have taken is a
  function of them (`takenBy`). Each takes three Go methods, but these are taken or free
  together (`lookup_methods`), so two of the three checks never fail
  (`claimMethods_takenBy`). From there one step is a statement about the operations before and
  the next one (`stepwise_nameOperations`).
-/
import GoBindings.Proofs.Generation
import GoBindings.Proofs.Keys

namespace GoBindings

/-- Where keys differ, the last element with a key is the only one. -/
theorem find?_reverse_key_eq_some_iff {α κ : Type} [BEq κ] [LawfulBEq κ] {key : α → κ}
    {xs : List α} (h : (xs.map key).Nodup) {k : κ} {a : α} :
    xs.reverse.find? (key · == k) = some a ↔ xs.filter (key · == k) = [a] := by
  rw [← find?_key_perm (List.reverse_perm xs).symm h, find?_key_eq_some_iff h]
  constructor
  · rintro ⟨ha, rfl⟩
    obtain ⟨before, after, rfl⟩ := List.append_of_mem ha
    simp only [List.map_append, List.map_cons, List.nodup_append, List.nodup_cons, List.mem_cons,
      List.mem_map] at h
    obtain ⟨-, ⟨hafter, -⟩, hbefore⟩ := h
    rw [List.filter_eq_cons_iff]
    refine ⟨before, after, rfl, ?_, beq_self_eq_true _, ?_⟩
    · intro b hb heq
      exact hbefore _ ⟨b, hb, rfl⟩ _ (.inl rfl) (eq_of_beq heq)
    · rw [List.filter_eq_nil_iff]
      intro b hb heq
      exact hafter ⟨b, hb, eq_of_beq heq⟩
  · intro hfilter
    have ha : a ∈ xs.filter (key · == k) := hfilter ▸ List.mem_singleton_self a
    rw [List.mem_filter] at ha
    exact ⟨ha.1, eq_of_beq ha.2⟩

theorem find?_reverse_eq_none_iff {α κ : Type} [BEq κ] [LawfulBEq κ] {key : α → κ} {xs : List α}
    {k : κ} : xs.reverse.find? (key · == k) = none ↔ k ∉ xs.map key := by
  simp [List.find?_eq_none]

theorem lookup_map_const {α β : Type} [BEq α] [LawfulBEq α] (xs : List α) (a : α) (b : β) :
    (xs.map fun x => (x, b)).lookup a = if a ∈ xs then some b else none := by
  induction xs with
  | nil => rfl
  | cons x rest ih =>
    rw [List.map_cons, List.lookup_cons, ih]
    by_cases h : a = x
    · simp [h]
    · simp [h, beq_false_of_ne h]

namespace Service

variable {s : Service} {settings : Settings} {before ops : List Operation} {op : Operation}
  {fault : Fault}

/-! ### Named services -/

/-- The names of an operation of a service. -/
def namesOf (s : Service) (settings : Settings) (op : Operation) : OperationNames :=
  OperationNames.ofMethod (ServiceNames.ofName s.name) op.methodName
    (s.operationName settings op)

/-- The service with its names. -/
def named (s : Service) (settings : Settings) : NamedService :=
  ⟨s, ServiceNames.ofName s.name, s.operations.map fun op => ⟨op, s.namesOf settings op⟩⟩

/-! ### What operations take -/

/-- The method of the client that waits for the result. -/
def executeMethod (s : Service) (op : Operation) : GoMethod :=
  ((ServiceNames.ofName s.name).client, "Execute" ++ Go.camelCase op.methodName)

/-- The method of the client that gives a future of the result. -/
def startMethod (s : Service) (op : Operation) : GoMethod :=
  ((ServiceNames.ofName s.name).client, "Start" ++ Go.camelCase op.methodName)

def handlerMethod (s : Service) (op : Operation) : GoMethod :=
  ((ServiceNames.ofName s.name).handler, Go.camelCase op.methodName)

/-- The Go methods of an operation, the one that is claimed last in front. -/
def goMethods (s : Service) (op : Operation) : List GoMethod :=
  [s.handlerMethod op, s.startMethod op, s.executeMethod op]

/-- What is taken once operations have been named, the latest first. -/
def takenBy (s : Service) (settings : Settings) (before : List Operation) : Taken where
  runtime := before.reverse.map fun op => (s.operationName settings op, op.methodName)
  methods := before.reverse.flatMap fun op =>
    (s.goMethods op).map fun method => (method, s.operationOrigin op)

theorem takenBy_nil (s : Service) (settings : Settings) : s.takenBy settings [] = {} := rfl

theorem takenBy_concat (s : Service) (settings : Settings) (before : List Operation)
    (op : Operation) :
    s.takenBy settings (before ++ [op]) =
      ⟨(s.operationName settings op, op.methodName) :: (s.takenBy settings before).runtime,
        ((s.goMethods op).map fun method => (method, s.operationOrigin op))
          ++ (s.takenBy settings before).methods⟩ := by
  simp [takenBy]

theorem client_ne_handler (name : String) :
    (ServiceNames.ofName name).client ≠ (ServiceNames.ofName name).handler := by
  simp [ServiceNames.ofName]

theorem startMethod_ne_executeMethod (s : Service) (op other : Operation) :
    s.startMethod op ≠ s.executeMethod other := by
  intro h
  have hname : "Start" ++ Go.camelCase op.methodName = "Execute" ++ Go.camelCase other.methodName :=
    (Prod.mk.inj h).2
  simpa [String.toList_append] using congrArg String.toList hname

theorem handlerMethod_ne_startMethod (s : Service) (op other : Operation) :
    s.handlerMethod op ≠ s.startMethod other := by
  intro h
  exact client_ne_handler s.name (Prod.mk.inj h).1.symm

theorem handlerMethod_ne_executeMethod (s : Service) (op other : Operation) :
    s.handlerMethod op ≠ s.executeMethod other := by
  intro h
  exact client_ne_handler s.name (Prod.mk.inj h).1.symm

/-- A Go method tells the Go name of its operation. -/
theorem camelCase_eq_of_mem_goMethods {other : Operation} {method : GoMethod}
    (h : method ∈ s.goMethods op) (h' : method ∈ s.goMethods other) :
    Go.camelCase op.methodName = Go.camelCase other.methodName := by
  simp only [goMethods, List.mem_cons, List.not_mem_nil, or_false] at h h'
  rcases h with rfl | rfl | rfl <;> rcases h' with h' | h' | h'
  · exact (Prod.mk.inj h').2
  · exact absurd h' (handlerMethod_ne_startMethod s op other)
  · exact absurd h' (handlerMethod_ne_executeMethod s op other)
  · exact absurd h'.symm (handlerMethod_ne_startMethod s other op)
  · exact (String.append_right_inj _).mp (Prod.mk.inj h').2
  · exact absurd h' (startMethod_ne_executeMethod s op other)
  · exact absurd h'.symm (handlerMethod_ne_executeMethod s other op)
  · exact absurd h'.symm (startMethod_ne_executeMethod s other op)
  · exact (String.append_right_inj _).mp (Prod.mk.inj h').2

theorem mem_goMethods_iff {other : Operation} {method : GoMethod}
    (h : method ∈ s.goMethods op) :
    method ∈ s.goMethods other ↔ Go.camelCase other.methodName = Go.camelCase op.methodName := by
  constructor
  · intro h'
    exact camelCase_eq_of_mem_goMethods h' h
  · intro hname
    unfold goMethods handlerMethod startMethod executeMethod at h ⊢
    rwa [hname]

theorem lookup_runtime (s : Service) (settings : Settings) (before : List Operation)
    (name : String) :
    (s.takenBy settings before).runtime.lookup name =
      (before.reverse.find? (s.operationName settings · == name)).map (·.methodName) := by
  rw [takenBy, lookup_eq_find?, List.find?_map, Option.map_map]
  rfl

theorem lookup_runtime_of_not_mem {name : String}
    (h : name ∉ before.map (s.operationName settings)) :
    (s.takenBy settings before).runtime.lookup name = none := by
  rw [lookup_runtime, find?_reverse_eq_none_iff.mpr h]
  rfl

/-- The methods of an operation are all taken by the latest one with its Go name, or all free. -/
theorem lookup_methods {method : GoMethod} (h : method ∈ s.goMethods op)
    (settings : Settings) (before : List Operation) :
    (s.takenBy settings before).methods.lookup method =
      (before.reverse.find? (Go.camelCase ·.methodName == Go.camelCase op.methodName)).map
        s.operationOrigin := by
  unfold takenBy
  dsimp only
  induction before.reverse with
  | nil => rfl
  | cons other rest ih =>
    rw [List.flatMap_cons, List.lookup_append, lookup_map_const, ih, List.find?_cons]
    by_cases hname : Go.camelCase other.methodName = Go.camelCase op.methodName
    · rw [if_pos ((mem_goMethods_iff h).mpr hname), hname, beq_self_eq_true]
      rfl
    · rw [if_neg (mt (mem_goMethods_iff h).mp hname), beq_false_of_ne hname]
      rfl

/-! ### One operation -/

section Claim

variable {taken : List (GoMethod × String)} {method other : GoMethod} {origin first : String}

theorem claimMethod_taken (h : taken.lookup method = some first) :
    claimMethod taken method origin =
      .error (.identifierCollision (method.1 ++ "." ++ method.2) first origin) := by
  rw [claimMethod, h]

theorem claimMethod_free (h : taken.lookup method = none) :
    claimMethod taken method origin = .ok ((method, origin) :: taken) := by
  rw [claimMethod, h]

theorem lookup_cons_of_ne (origin : String) (hne : method ≠ other)
    (h : taken.lookup method = none) :
    List.lookup method ((other, origin) :: taken) = none := by
  rw [List.lookup_cons, beq_false_of_ne hne]
  exact h

end Claim

/-- Claims the Go methods of an operation. -/
def claimMethods (s : Service) (taken : List (GoMethod × String)) (op : Operation) :
    Except Fault (List (GoMethod × String)) := do
  let methods ← claimMethod taken (s.executeMethod op) (s.operationOrigin op)
  let methods ← claimMethod methods (s.startMethod op) (s.operationOrigin op)
  claimMethod methods (s.handlerMethod op) (s.operationOrigin op)

/-- Where the first method is free, so are the other two, and where it is not, that is the
    fault. -/
theorem claimMethods_takenBy (s : Service) (settings : Settings) (before : List Operation)
    (op : Operation) :
    s.claimMethods (s.takenBy settings before).methods op =
      match before.reverse.find?
          (Go.camelCase ·.methodName == Go.camelCase op.methodName) with
      | some first =>
        .error (.identifierCollision
          ((ServiceNames.ofName s.name).client ++ "." ++ ("Execute" ++ Go.camelCase op.methodName))
          (s.operationOrigin first) (s.operationOrigin op))
      | none => .ok (s.takenBy settings (before ++ [op])).methods := by
  have hlookup := fun method (h : method ∈ s.goMethods op) => lookup_methods h settings before
  simp only [goMethods, List.forall_mem_cons, List.not_mem_nil, false_imp_iff, implies_true,
    and_true] at hlookup
  obtain ⟨hhandler, hstart, hexecute⟩ := hlookup
  unfold claimMethods
  cases hfind : before.reverse.find?
      (Go.camelCase ·.methodName == Go.camelCase op.methodName) with
  | some first =>
    rw [hfind] at hexecute
    rw [claimMethod_taken hexecute]
    rfl
  | none =>
    rw [hfind] at hhandler hstart hexecute
    have hstart' := lookup_cons_of_ne (s.operationOrigin op)
      (startMethod_ne_executeMethod s op op) hstart
    have hhandler' := lookup_cons_of_ne (s.operationOrigin op)
      (handlerMethod_ne_startMethod s op op)
      (lookup_cons_of_ne (s.operationOrigin op) (handlerMethod_ne_executeMethod s op op) hhandler)
    rw [claimMethod_free hexecute, takenBy_concat]
    dsimp only [bind, Except.bind]
    rw [claimMethod_free hstart']
    dsimp only
    rw [claimMethod_free hhandler']
    rfl

theorem nameOperation_of_empty (taken : Taken) (h : s.operationName settings op = "") :
    s.nameOperation settings taken op = .error (.invalidOption Template.key
      (Text.quoted settings.template.source ++ " renders an empty operation name for "
        ++ s.fullName ++ "." ++ op.methodName)) := by
  unfold nameOperation
  dsimp only
  rw [if_pos (String.isEmpty_iff.mpr h)]
  rfl

theorem nameOperation_of_taken {taken : Taken} {first : String}
    (hne : s.operationName settings op ≠ "")
    (htaken : taken.runtime.lookup (s.operationName settings op) = some first) :
    s.nameOperation settings taken op = .error (.duplicateOperationName s.fullName
      (s.operationName settings op) first op.methodName) := by
  unfold nameOperation
  dsimp only
  rw [if_neg (by rwa [String.isEmpty_iff]), htaken]

theorem nameOperation_of_free {taken : Taken} (hne : s.operationName settings op ≠ "")
    (hfree : taken.runtime.lookup (s.operationName settings op) = none) :
    s.nameOperation settings taken op = s.claimMethods taken.methods op >>= fun methods =>
      .ok (⟨op, s.namesOf settings op⟩,
        ⟨(s.operationName settings op, op.methodName) :: taken.runtime, methods⟩) := by
  unfold nameOperation
  dsimp only
  rw [if_neg (by rwa [String.isEmpty_iff]), hfree]
  simp only [claimMethods, bind_assoc]
  rfl

/-! ### What goes together -/

/-- No name at run time is empty, and no two operations have one such name or one Go name. -/
structure Nameable (runtimeName : Operation → String) (ops : List Operation) : Prop where
  nonempty : ∀ op ∈ ops, runtimeName op ≠ ""
  runtime : (ops.map runtimeName).Nodup
  goNames : (ops.map fun op => Go.camelCase op.methodName).Nodup

/-- Why an operation cannot be named behind others. Of several reasons the first counts, and the
    operation that it collides with is the only one of its name. -/
inductive Unnameable (s : Service) (settings : Settings) (runtimeName : Operation → String)
    (before : List Operation) (op : Operation) : Fault → Prop
  | empty (h : runtimeName op = "") :
      Unnameable s settings runtimeName before op (.invalidOption "operation_name_template"
        (Text.quoted settings.template.source ++ " renders an empty operation name for "
          ++ s.fullName ++ "." ++ op.methodName))
  | repeated {first : Operation} (hne : runtimeName op ≠ "")
      (hfirst : before.filter (runtimeName · == runtimeName op) = [first]) :
      Unnameable s settings runtimeName before op (.duplicateOperationName s.fullName
        (runtimeName op) first.methodName op.methodName)
  | clash {first : Operation} (hne : runtimeName op ≠ "")
      (hfresh : runtimeName op ∉ before.map runtimeName)
      (hfirst : before.filter (Go.camelCase ·.methodName == Go.camelCase op.methodName) =
        [first]) :
      Unnameable s settings runtimeName before op (.identifierCollision
        ((ServiceNames.ofName s.name).client ++ "." ++ ("Execute" ++ Go.camelCase op.methodName))
        ("operation " ++ s.fullName ++ "." ++ first.methodName)
        ("operation " ++ s.fullName ++ "." ++ op.methodName))

section Conditions

variable {runtimeName : Operation → String}

theorem nameable_nil (runtimeName : Operation → String) : Nameable runtimeName [] where
  nonempty _ hop := absurd hop List.not_mem_nil
  runtime := List.nodup_nil
  goNames := List.nodup_nil

theorem Nameable.of_append {more : List Operation} (h : Nameable runtimeName (before ++ more)) :
    Nameable runtimeName before where
  nonempty op hop := h.nonempty op (List.mem_append_left more hop)
  runtime := by
    have hruntime := h.runtime
    rw [List.map_append] at hruntime
    exact hruntime.of_append_left
  goNames := by
    have hgoNames := h.goNames
    rw [List.map_append] at hgoNames
    exact hgoNames.of_append_left

theorem nameable_concat_iff : Nameable runtimeName (before ++ [op]) ↔
    Nameable runtimeName before ∧ runtimeName op ≠ "" ∧ runtimeName op ∉ before.map runtimeName ∧
      Go.camelCase op.methodName ∉ before.map fun other => Go.camelCase other.methodName := by
  constructor
  · intro h
    have hruntime := h.runtime
    have hgoNames := h.goNames
    rw [List.map_append, List.map_singleton, List.nodup_append] at hruntime hgoNames
    exact ⟨h.of_append, h.nonempty op (by simp),
      fun hmem => hruntime.2.2 _ hmem _ (List.mem_singleton_self _) rfl,
      fun hmem => hgoNames.2.2 _ hmem _ (List.mem_singleton_self _) rfl⟩
  · rintro ⟨h, hne, hruntime, hgoName⟩
    refine ⟨?_, ?_, ?_⟩
    · rw [List.forall_mem_append, List.forall_mem_singleton]
      exact ⟨h.nonempty, hne⟩
    · rw [List.map_append, List.map_singleton, ← List.concat_eq_append]
      exact h.runtime.concat hruntime
    · rw [List.map_append, List.map_singleton, ← List.concat_eq_append]
      exact h.goNames.concat hgoName

theorem unnameable_or_nameable (s : Service) (settings : Settings)
    (h : Nameable runtimeName before) (op : Operation) :
    (∃ fault, s.Unnameable settings runtimeName before op fault) ∨
      Nameable runtimeName (before ++ [op]) := by
  by_cases hempty : runtimeName op = ""
  · exact .inl ⟨_, .empty hempty⟩
  cases hruntime : before.reverse.find? (runtimeName · == runtimeName op) with
  | some first =>
    exact .inl ⟨_, .repeated hempty ((find?_reverse_key_eq_some_iff h.runtime).mp hruntime)⟩
  | none =>
    have hfresh := find?_reverse_eq_none_iff.mp hruntime
    cases hmethods : before.reverse.find?
        (Go.camelCase ·.methodName == Go.camelCase op.methodName) with
    | some first =>
      have hfirst := (find?_reverse_key_eq_some_iff h.goNames).mp hmethods
      exact .inl ⟨_, .clash hempty hfresh hfirst⟩
    | none =>
      exact .inr (nameable_concat_iff.mpr
        ⟨h, hempty, hfresh, find?_reverse_eq_none_iff.mp hmethods⟩)

/-- The Go method that a collision is about is neither one that gives a future nor one of the
    handler. -/
theorem Unnameable.collision {ident first second : String}
    (h : s.Unnameable settings runtimeName before op (.identifierCollision ident first second))
    (name : String) :
    ident ≠ (ServiceNames.ofName s.name).client ++ "." ++ ("Start" ++ name) ∧
      ident ≠ (ServiceNames.ofName s.name).handler ++ "." ++ name := by
  cases h with
  | clash =>
    constructor
    · intro heq
      have hname := (String.append_right_inj _).mp heq
      simpa [String.toList_append] using congrArg String.toList hname
    · intro heq
      simp only [ServiceNames.ofName, String.append_assoc, String.append_right_inj] at heq
      simpa [String.toList_append] using congrArg String.toList heq

end Conditions

/-! ### One operation -/

theorem nameOperation_of_unnameable (h : Nameable (s.operationName settings) before)
    (hop : s.Unnameable settings (s.operationName settings) before op fault) :
    s.nameOperation settings (s.takenBy settings before) op = .error fault := by
  cases hop with
  | empty hempty => exact nameOperation_of_empty _ hempty
  | repeated hne hfirst =>
    refine nameOperation_of_taken hne ?_
    rw [lookup_runtime, (find?_reverse_key_eq_some_iff h.runtime).mpr hfirst]
    rfl
  | clash hne hfresh hfirst =>
    rw [nameOperation_of_free hne (lookup_runtime_of_not_mem hfresh), claimMethods_takenBy,
      (find?_reverse_key_eq_some_iff h.goNames).mpr hfirst]
    rfl

theorem nameOperation_of_nameable (h : Nameable (s.operationName settings) (before ++ [op])) :
    s.nameOperation settings (s.takenBy settings before) op =
      .ok (⟨op, s.namesOf settings op⟩, s.takenBy settings (before ++ [op])) := by
  obtain ⟨-, hne, hfresh, hgoName⟩ := nameable_concat_iff.mp h
  rw [nameOperation_of_free hne (lookup_runtime_of_not_mem hfresh), claimMethods_takenBy,
    find?_reverse_eq_none_iff.mpr hgoName, takenBy_concat]
  rfl

/-! ### All operations -/

/-- Reports aside, a run names the first operation and goes on with what is taken then. -/
theorem outcome_nameOperations_cons (s : Service) (settings : Settings) (taken : Taken)
    (op : Operation) (rest : List Operation) :
    (s.nameOperations settings taken (op :: rest)).outcome =
      s.nameOperation settings taken op >>= fun x =>
        (s.nameOperations settings x.2 rest).outcome >>= fun more => .ok (x.1 :: more) := by
  rw [nameOperations, Traced.outcome_bind, Traced.outcome_ofExcept]
  congr 1
  funext x
  rw [Traced.outcome_bind_ok (Traced.outcome_report _), Traced.outcome_bind]
  rfl

theorem stepwise_nameOperations (s : Service) (settings : Settings) :
    Stepwise
      (fun before ops => (s.nameOperations settings (s.takenBy settings before) ops).outcome)
      (fun op => ⟨op, s.namesOf settings op⟩) (Nameable (s.operationName settings))
      (s.Unnameable settings (s.operationName settings)) where
  nil _ := rfl
  refused hbefore hop _ := by
    rw [outcome_nameOperations_cons, nameOperation_of_unnameable hbefore hop]
    rfl
  passed hall _ := by
    rw [outcome_nameOperations_cons, nameOperation_of_nameable hall]
    rfl
  next := unnameable_or_nameable s settings
  part hall := hall.of_append

/-! ### Services -/

theorem resolve_eq_ok_iff {n : NamedService} :
    (s.resolve settings).outcome = .ok n ↔
      Nameable (s.operationName settings) s.operations ∧ n = s.named settings := by
  rw [resolve, Traced.outcome_bind_eq_ok, ← takenBy_nil s settings]
  simp only [(stepwise_nameOperations s settings).eq_ok_iff (nameable_nil _),
    List.nil_append]
  constructor
  · rintro ⟨operations, ⟨h, rfl⟩, hn⟩
    exact ⟨h, (Except.ok.inj hn).symm⟩
  · rintro ⟨h, rfl⟩
    exact ⟨_, ⟨h, rfl⟩, rfl⟩

theorem resolve_eq_error_iff :
    (s.resolve settings).outcome = .error fault ↔
      ∃ before op after, s.operations = before ++ op :: after ∧
        Nameable (s.operationName settings) before ∧
        s.Unnameable settings (s.operationName settings) before op fault := by
  rw [resolve, Traced.outcome_bind_eq_error, ← takenBy_nil s settings,
    (stepwise_nameOperations s settings).eq_error_iff (nameable_nil _)]
  simp only [List.nil_append]
  constructor
  · rintro (h | ⟨operations, -, hn⟩)
    · exact h
    · exact nomatch hn
  · exact .inl

/-- A service gets its names exactly if these are neither empty nor repeated. Otherwise the first
    operation that does not go with those before it is at fault, and as to Go methods that is
    always the one that waits for the result. The name of an operation at run time is the chosen
    one, or else what the template gives for its method, the service and the package. -/
theorem resolve_exact (s : Service) (settings : Settings) :
    ∃ runtimeName : Operation → String,
      (∀ op, runtimeName op = op.chosenName.getD
        (settings.template.render ⟨op.methodName, s.name, s.fullName, s.package⟩)) ∧
      (∀ n, (s.resolve settings).outcome = .ok n ↔
        Nameable runtimeName s.operations ∧
          n = ⟨s, ServiceNames.ofName s.name, s.operations.map fun op =>
            ⟨op, { handlerMethod := Go.camelCase op.methodName
                   execute := "Execute" ++ Go.camelCase op.methodName
                   start := "Start" ++ Go.camelCase op.methodName
                   operationNameConst :=
                     Go.camelCase s.name ++ Go.camelCase op.methodName ++ "OperationName"
                   operationName := runtimeName op }⟩⟩) ∧
      (∀ fault, (s.resolve settings).outcome = .error fault ↔
        ∃ before op after, s.operations = before ++ op :: after ∧ Nameable runtimeName before ∧
          s.Unnameable settings runtimeName before op fault) ∧
      ∀ ident first second,
        (s.resolve settings).outcome = .error (.identifierCollision ident first second) →
          ∀ name, ident ≠ (ServiceNames.ofName s.name).client ++ "." ++ ("Start" ++ name) ∧
            ident ≠ (ServiceNames.ofName s.name).handler ++ "." ++ name := by
  refine ⟨s.operationName settings, fun op => rfl, fun n => resolve_eq_ok_iff,
    fun fault => resolve_eq_error_iff, ?_⟩
  intro ident first second herror name
  obtain ⟨before, op, after, -, -, hop⟩ := resolve_eq_error_iff.mp herror
  exact hop.collision name

/-- A service of orders. -/
def ordersWith (operations : List Operation) : Service :=
  ⟨"oms.v1.Orders", "Orders", "oms.v1", "oms/v1/oms.proto", none, operations⟩

/-- A method on orders, with the name that is chosen for it. -/
def orderOperation (methodName : String) (chosenName : Option String) : Operation :=
  ⟨methodName, ".oms.v1.Order", ".oms.v1.Order", chosenName⟩

/-- Two methods with one Go name, of which the first has a name chosen for it. -/
def twoSpellings : Service :=
  ordersWith [orderOperation "create_order" (some "Orders/CreateOrder"),
    orderOperation "CreateOrder" none]

/-- Names at run time begin with the service. -/
def slashed : Settings :=
  { Settings.standard with
    template :=
      ⟨"\x7bservice\x7d/\x7bmethod\x7d",
        [.placeholder .service, .literal "/", .placeholder .method]⟩ }

/-- The template gives the second method the name that is chosen for the first. If it gives another
    name, the Go methods still collide. Where the second method is another one, both are named. -/
theorem resolve_exact_twoSpellings :
    (twoSpellings.resolve slashed).outcome =
        .error (.duplicateOperationName "oms.v1.Orders" "Orders/CreateOrder" "create_order"
          "CreateOrder") ∧
      (twoSpellings.resolve .standard).outcome =
        .error (.identifierCollision "OrdersNexusClient.ExecuteCreateOrder"
          "operation oms.v1.Orders.create_order" "operation oms.v1.Orders.CreateOrder") ∧
      (∀ name, "OrdersNexusClient.ExecuteCreateOrder" ≠
          (ServiceNames.ofName "Orders").client ++ "." ++ ("Start" ++ name) ∧
        "OrdersNexusClient.ExecuteCreateOrder" ≠
          (ServiceNames.ofName "Orders").handler ++ "." ++ name) ∧
      ∃ n, ((ordersWith [orderOperation "create_order" (some "create"),
          orderOperation "CancelOrder" none]).resolve slashed).outcome = .ok n ∧
        n.operations.map (·.names.operationName) = ["create", "Orders/CancelOrder"] := by
  have hrepeated : (twoSpellings.resolve slashed).outcome =
      .error (.duplicateOperationName "oms.v1.Orders" "Orders/CreateOrder" "create_order"
        "CreateOrder") := by
    obtain ⟨runtimeName, hname, -, herror, -⟩ := resolve_exact twoSpellings slashed
    have hfirst : runtimeName (orderOperation "create_order" (some "Orders/CreateOrder")) =
        "Orders/CreateOrder" := hname _
    have hsecond : runtimeName (orderOperation "CreateOrder" none) = "Orders/CreateOrder" :=
      (hname _).trans (by decide)
    have hop := @Unnameable.repeated twoSpellings slashed runtimeName
      [orderOperation "create_order" (some "Orders/CreateOrder")] (orderOperation "CreateOrder" none)
      (orderOperation "create_order" (some "Orders/CreateOrder")) (by simp [hsecond])
      (by simp [hfirst, hsecond])
    rw [hsecond] at hop
    refine (herror _).mpr ⟨_, _, [], (List.singleton_append ..).symm, ⟨?_, ?_, ?_⟩, hop⟩
    · simp [hfirst]
    · simp
    · simp
  have hclash : (twoSpellings.resolve .standard).outcome =
      .error (.identifierCollision "OrdersNexusClient.ExecuteCreateOrder"
        "operation oms.v1.Orders.create_order" "operation oms.v1.Orders.CreateOrder") := by
    decide +kernel
  refine ⟨hrepeated, hclash, ?_, ?_⟩
  · obtain ⟨-, -, -, -, hcollision⟩ := resolve_exact twoSpellings .standard
    exact hcollision _ _ _ hclash
  · obtain ⟨runtimeName, hname, hok, -⟩ := resolve_exact (ordersWith
      [orderOperation "create_order" (some "create"), orderOperation "CancelOrder" none]) slashed
    have hfirst : runtimeName (orderOperation "create_order" (some "create")) = "create" := hname _
    have hsecond : runtimeName (orderOperation "CancelOrder" none) = "Orders/CancelOrder" :=
      (hname _).trans (by decide)
    refine ⟨_, (hok _).mpr ⟨⟨?_, ?_, ?_⟩, rfl⟩, ?_⟩
    · simp [ordersWith, hfirst, hsecond]
    · simp [ordersWith, hfirst, hsecond]
    · simp only [ordersWith]
      decide +kernel
    · simp [ordersWith, hfirst, hsecond]

end Service

namespace Environment

variable {settings : Settings} {services : List Service}

theorem outcome_nameServices_cons (settings : Settings) (s : Service) (rest : List Service) :
    (nameServices settings (s :: rest)).outcome =
      (s.resolve settings).outcome >>= fun n =>
        (nameServices settings rest).outcome >>= fun more => .ok (n :: more) := by
  rw [nameServices, Traced.outcome_bind]
  congr 1
  funext n
  rw [Traced.outcome_bind]
  rfl

theorem stepwise_nameServices (settings : Settings) :
    Stepwise (fun _ services => (nameServices settings services).outcome) (·.named settings)
      (fun before => ∀ s ∈ before, Service.Nameable (s.operationName settings) s.operations)
      (fun _ s fault => (s.resolve settings).outcome = .error fault) where
  nil _ := rfl
  refused _ hs _ := by
    rw [outcome_nameServices_cons, hs]
    rfl
  passed {before s} hall _ := by
    have hs : Service.Nameable (s.operationName settings) s.operations := hall s (by simp)
    rw [outcome_nameServices_cons, Service.resolve_eq_ok_iff.mpr ⟨hs, rfl⟩]
    rfl
  next {before} hbefore s := by
    cases hresolve : (s.resolve settings).outcome with
    | error fault => exact .inl ⟨fault, rfl⟩
    | ok n =>
      refine .inr ?_
      rw [List.forall_mem_append, List.forall_mem_singleton]
      exact ⟨hbefore, (Service.resolve_eq_ok_iff.mp hresolve).1⟩
  part hall s hs := hall s (List.mem_append_left _ hs)

/-- Services are named exactly if each of them can be. -/
theorem nameServices_eq_ok_iff {named : List NamedService} :
    (nameServices settings services).outcome = .ok named ↔
      (∀ s ∈ services, Service.Nameable (s.operationName settings) s.operations) ∧
        named = services.map (·.named settings) :=
  (stepwise_nameServices settings).eq_ok_iff (List.forall_mem_nil _)

end Environment

end GoBindings
