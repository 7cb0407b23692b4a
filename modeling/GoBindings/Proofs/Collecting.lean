/-
  GoBindings/Proofs/Collecting.lean
  =================================
  **Which files have usable services.**

  Services can be collected exactly if each has a name and each of its methods a name of its
  own, both types and no stream (`Service.IsUnary`). Otherwise the first service that is
  unlike that is at fault, and in it the first method (`Service.Rejected`). A method can have
  several flaws; then the one that is looked for first counts (`Method.Rejected`).

  Methods are looked at one after the other with the names of those before. What is kept of
  these is their list backwards and its length, so one step is a statement about the methods
  before and the next one (`stepwise_operationsFrom`). Services are looked at in the same way
  (`stepwise_collectFrom`).
-/
import GoBindings.Proofs.Generation

namespace GoBindings

namespace Descriptor

/-! ### Declared services -/

def Service.fullName (f : File) (s : Service) : String := qualify f.package s.name

/-- The operation for a method of the service with a full name. -/
def Method.toOperation (custom : CustomOptions) (service : String) (m : Method) : Operation :=
  ⟨m.name, m.inputType, m.outputType, custom.operationName? service m.name⟩

/-- The service for a declaration in a file. -/
def Service.toService (custom : CustomOptions) (f : File) (d : Service) : GoBindings.Service :=
  ⟨d.fullName f, d.name, f.package, f.name, custom.serviceName? (d.fullName f),
    d.methods.map (·.toOperation custom (d.fullName f))⟩

/-! ### Usable declarations -/

/-- The method has a name and two types, and takes and gives one message. -/
structure Method.IsUnary (m : Method) : Prop where
  name : m.name ≠ ""
  input : m.inputType ≠ ""
  output : m.outputType ≠ ""
  client : m.clientStreaming = false
  server : m.serverStreaming = false

instance (m : Method) : Decidable m.IsUnary :=
  decidable_of_iff (m.name ≠ "" ∧ m.inputType ≠ "" ∧ m.outputType ≠ "" ∧
      m.clientStreaming = false ∧ m.serverStreaming = false)
    ⟨fun ⟨name, input, output, client, server⟩ => ⟨name, input, output, client, server⟩,
      fun h => ⟨h.name, h.input, h.output, h.client, h.server⟩⟩

/-- Methods that one service can have. -/
structure UnaryMethods (methods : List Method) : Prop where
  unary : ∀ m ∈ methods, m.IsUnary
  distinct : (methods.map (·.name)).Nodup

/-- A service with a name, and with methods that it can have. -/
structure Service.IsUnary (s : Service) : Prop where
  name : s.name ≠ ""
  methods : UnaryMethods s.methods

instance (s : Service) : Decidable s.IsUnary :=
  decidable_of_iff (s.name ≠ "" ∧ (∀ m ∈ s.methods, m.IsUnary) ∧ (s.methods.map (·.name)).Nodup)
    ⟨fun ⟨name, unary, distinct⟩ => ⟨name, unary, distinct⟩,
      fun h => ⟨h.name, h.methods.unary, h.methods.distinct⟩⟩

inductive Method.Streams (m : Method) : Streaming → Prop
  | client (hclient : m.clientStreaming = true) (hserver : m.serverStreaming = false) :
      Streams m .client
  | server (hclient : m.clientStreaming = false) (hserver : m.serverStreaming = true) :
      Streams m .server
  | bidirectional (hclient : m.clientStreaming = true) (hserver : m.serverStreaming = true) :
      Streams m .bidirectional

/-- Why a method cannot stand behind others in the service with a full name. -/
inductive Method.Rejected (service : String) (before : List Method) (m : Method) : Fault → Prop
  | nameless (hname : m.name = "") :
      Rejected service before m (.malformedDescriptor
        ("method #" ++ toString before.length ++ " of service " ++ service ++ " has no name"))
  | repeated (hname : m.name ≠ "") (hseen : m.name ∈ before.map (·.name)) :
      Rejected service before m (.malformedDescriptor
        ("method " ++ (service ++ "." ++ m.name) ++ " is declared more than once"))
  | inputless (hname : m.name ≠ "") (hnew : m.name ∉ before.map (·.name))
      (hinput : m.inputType = "") :
      Rejected service before m (.malformedDescriptor
        ("method " ++ (service ++ "." ++ m.name) ++ " has no input type"))
  | outputless (hname : m.name ≠ "") (hnew : m.name ∉ before.map (·.name))
      (hinput : m.inputType ≠ "") (houtput : m.outputType = "") :
      Rejected service before m (.malformedDescriptor
        ("method " ++ (service ++ "." ++ m.name) ++ " has no output type"))
  | streaming {kind : Streaming} (hname : m.name ≠ "") (hnew : m.name ∉ before.map (·.name))
      (hinput : m.inputType ≠ "") (houtput : m.outputType ≠ "") (hkind : m.Streams kind) :
      Rejected service before m (.unsupportedMethodKind (service ++ "." ++ m.name) kind)

/-- Why the service at an index of a file cannot be used. -/
inductive Service.Rejected (f : File) (index : Nat) (s : Service) : Fault → Prop
  | nameless (hname : s.name = "") :
      Rejected f index s (.malformedDescriptor
        ("service #" ++ toString index ++ " in " ++ f.name ++ " has no name"))
  | method {before after : List Method} {m : Method} {fault : Fault} (hname : s.name ≠ "")
      (hmethods : s.methods = before ++ m :: after) (hbefore : UnaryMethods before)
      (hm : m.Rejected (qualify f.package s.name) before fault) : Rejected f index s fault

theorem unaryMethods_nil : UnaryMethods [] where
  unary _ hm := absurd hm List.not_mem_nil
  distinct := List.nodup_nil

theorem UnaryMethods.of_append {before after : List Method} (h : UnaryMethods (before ++ after)) :
    UnaryMethods before where
  unary m hm := h.unary m (List.mem_append_left after hm)
  distinct := by
    have hdistinct := h.distinct
    rw [List.map_append] at hdistinct
    exact hdistinct.of_append_left

theorem unaryMethods_concat_iff {before : List Method} {m : Method} :
    UnaryMethods (before ++ [m]) ↔
      UnaryMethods before ∧ m.IsUnary ∧ m.name ∉ before.map (·.name) := by
  constructor
  · intro h
    have hdistinct := h.distinct
    rw [List.map_append, List.map_singleton, List.nodup_append] at hdistinct
    refine ⟨h.of_append, h.unary m (by simp), ?_⟩
    intro hmem
    exact hdistinct.2.2 _ hmem _ (List.mem_singleton_self _) rfl
  · rintro ⟨h, hm, hnew⟩
    refine ⟨?_, ?_⟩
    · rw [List.forall_mem_append, List.forall_mem_singleton]
      exact ⟨h.unary, hm⟩
    · rw [List.map_append, List.map_singleton, ← List.concat_eq_append]
      exact h.distinct.concat hnew

theorem Method.streaming?_eq_some_iff {m : Method} {kind : Streaming} :
    m.streaming? = some kind ↔ m.Streams kind := by
  unfold streaming?
  constructor
  · intro h
    split at h
    case h_1 => exact nomatch h
    case h_2 hclient hserver => exact Option.some.inj h ▸ .client hclient hserver
    case h_3 hclient hserver => exact Option.some.inj h ▸ .server hclient hserver
    case h_4 hclient hserver => exact Option.some.inj h ▸ .bidirectional hclient hserver
  · intro h
    cases h with
    | client hclient hserver => rw [hclient, hserver]
    | server hclient hserver => rw [hclient, hserver]
    | bidirectional hclient hserver => rw [hclient, hserver]

theorem Method.streaming?_eq_none_iff {m : Method} :
    m.streaming? = none ↔ m.clientStreaming = false ∧ m.serverStreaming = false := by
  unfold streaming?
  cases m.clientStreaming <;> cases m.serverStreaming <;> simp

theorem Method.rejected_or_isUnary (service : String) (before : List Method) (m : Method) :
    (∃ fault, m.Rejected service before fault) ∨ m.IsUnary ∧ m.name ∉ before.map (·.name) := by
  by_cases hname : m.name = ""
  · exact .inl ⟨_, .nameless hname⟩
  by_cases hnew : m.name ∈ before.map (·.name)
  · exact .inl ⟨_, .repeated hname hnew⟩
  by_cases hinput : m.inputType = ""
  · exact .inl ⟨_, .inputless hname hnew hinput⟩
  by_cases houtput : m.outputType = ""
  · exact .inl ⟨_, .outputless hname hnew hinput houtput⟩
  cases hkind : m.streaming? with
  | some kind =>
    exact .inl ⟨_, .streaming hname hnew hinput houtput (streaming?_eq_some_iff.mp hkind)⟩
  | none =>
    obtain ⟨hclient, hserver⟩ := streaming?_eq_none_iff.mp hkind
    exact .inr ⟨⟨hname, hinput, houtput, hclient, hserver⟩, hnew⟩

end Descriptor

open Descriptor (qualify Method UnaryMethods)

namespace Service

variable {custom : CustomOptions} {fault : Fault}

/-! ### One method -/

theorem required_empty (what : String) : required "" what = .error (.malformedDescriptor what) :=
  rfl

theorem required_of_ne {value : String} (h : value ≠ "") (what : String) :
    required value what = .ok value := by
  unfold required
  rw [if_neg]
  rwa [String.isEmpty_iff]

section Method

variable {service : String} {before methods : List Method} {m : Method}

/-- The names before a method, the latest first. -/
def seenIn (before : List Method) : List String := (before.map (·.name)).reverse

theorem seenIn_concat (before : List Method) (m : Method) :
    seenIn (before ++ [m]) = m.name :: seenIn before := by
  simp [seenIn]

theorem contains_seenIn :
    (seenIn before).contains m.name = true ↔ m.name ∈ before.map (·.name) := by
  rw [List.contains_iff_mem, seenIn, List.mem_reverse]

theorem operationOf_of_rejected (h : m.Rejected service before fault) :
    operationOf custom service before.length (seenIn before) m = .error fault := by
  unfold operationOf
  cases h with
  | nameless hname => rw [hname, required_empty]; rfl
  | repeated hname hseen =>
    rw [required_of_ne hname]
    dsimp only [bind, Except.bind]
    rw [if_pos (contains_seenIn.mpr hseen)]
  | inputless hname hnew hinput =>
    rw [required_of_ne hname]
    dsimp only [bind, Except.bind]
    rw [if_neg (mt contains_seenIn.mp hnew), hinput, required_empty]
  | outputless hname hnew hinput houtput =>
    rw [required_of_ne hname]
    dsimp only [bind, Except.bind]
    rw [if_neg (mt contains_seenIn.mp hnew), required_of_ne hinput, houtput, required_empty]
  | streaming hname hnew hinput houtput hkind =>
    rw [required_of_ne hname]
    dsimp only [bind, Except.bind]
    rw [if_neg (mt contains_seenIn.mp hnew), required_of_ne hinput, required_of_ne houtput]
    dsimp only
    rw [Method.streaming?_eq_some_iff.mpr hkind]

theorem operationOf_of_isUnary (h : m.IsUnary) (hnew : m.name ∉ before.map (·.name)) :
    operationOf custom service before.length (seenIn before) m =
      .ok (m.toOperation custom service) := by
  unfold operationOf
  rw [required_of_ne h.name]
  dsimp only [bind, Except.bind]
  rw [if_neg (mt contains_seenIn.mp hnew), required_of_ne h.input, required_of_ne h.output]
  dsimp only
  rw [Method.streaming?_eq_none_iff.mpr ⟨h.client, h.server⟩]
  rfl

/-! ### All methods of a service -/

/-- Once a method has become an operation, it is one of those before. -/
theorem operationsFrom_cons_of_isUnary (h : m.IsUnary) (hnew : m.name ∉ before.map (·.name)) :
    operationsFrom custom service before.length (seenIn before) (m :: methods) =
      operationsFrom custom service (before ++ [m]).length (seenIn (before ++ [m])) methods
        >>= fun ops => .ok (m.toOperation custom service :: ops) := by
  rw [operationsFrom, operationOf_of_isUnary h hnew, seenIn_concat, List.length_append]
  rfl

theorem operationsFrom_cons_of_rejected (h : m.Rejected service before fault) :
    operationsFrom custom service before.length (seenIn before) (m :: methods) = .error fault := by
  rw [operationsFrom, operationOf_of_rejected h]
  rfl

theorem stepwise_operationsFrom (custom : CustomOptions) (service : String) :
    Stepwise
      (fun before methods =>
        operationsFrom custom service before.length (seenIn before) methods)
      (·.toOperation custom service) UnaryMethods (fun before m => m.Rejected service before) where
  nil _ := rfl
  refused _ hm _ := operationsFrom_cons_of_rejected hm
  passed hall _ := by
    obtain ⟨-, hm, hnew⟩ := Descriptor.unaryMethods_concat_iff.mp hall
    exact operationsFrom_cons_of_isUnary hm hnew
  next {before} hbefore m := by
    rcases Method.rejected_or_isUnary service before m with hm | ⟨hm, hnew⟩
    · exact .inl hm
    · exact .inr (Descriptor.unaryMethods_concat_iff.mpr ⟨hbefore, hm, hnew⟩)
  part hall := hall.of_append

end Method

/-! ### Services -/

section Declared

variable {f : Descriptor.File} {index : Nat} {d : Descriptor.Service}

theorem ofDeclaration_of_nameless (hname : d.name = "") :
    ofDeclaration custom f index d = .error (.malformedDescriptor
      ("service #" ++ toString index ++ " in " ++ f.name ++ " has no name")) := by
  unfold ofDeclaration
  rw [hname, required_empty]
  rfl

theorem ofDeclaration_of_named (hname : d.name ≠ "") :
    ofDeclaration custom f index d =
      operationsFrom custom (d.fullName f) ([] : List Method).length (seenIn []) d.methods
        >>= fun operations => .ok ⟨d.fullName f, d.name, f.package, f.name,
          custom.serviceName? (d.fullName f), operations⟩ := by
  unfold ofDeclaration
  rw [required_of_ne hname]
  rfl

theorem ofDeclaration_eq_ok_iff {s : Service} :
    ofDeclaration custom f index d = .ok s ↔ d.IsUnary ∧ s = d.toService custom f := by
  by_cases hname : d.name = ""
  · rw [ofDeclaration_of_nameless hname]
    constructor
    · intro hok
      exact nomatch hok
    · rintro ⟨hd, -⟩
      exact absurd hname hd.name
  · rw [ofDeclaration_of_named hname, Traced.except_bind_eq_ok]
    simp only [(stepwise_operationsFrom custom (d.fullName f)).eq_ok_iff
      Descriptor.unaryMethods_nil, List.nil_append]
    constructor
    · rintro ⟨operations, ⟨hmethods, rfl⟩, hs⟩
      exact ⟨⟨hname, hmethods⟩, (Except.ok.inj hs).symm⟩
    · rintro ⟨hd, rfl⟩
      exact ⟨_, ⟨hd.methods, rfl⟩, rfl⟩

theorem ofDeclaration_eq_error_iff :
    ofDeclaration custom f index d = .error fault ↔ d.Rejected f index fault := by
  by_cases hname : d.name = ""
  · rw [ofDeclaration_of_nameless hname]
    constructor
    · intro herror
      rw [← Except.error.inj herror]
      exact .nameless hname
    · intro hd
      cases hd with
      | nameless => rfl
      | method hne => exact absurd hname hne
  · rw [ofDeclaration_of_named hname, Traced.except_bind_eq_error,
      (stepwise_operationsFrom custom (d.fullName f)).eq_error_iff Descriptor.unaryMethods_nil]
    constructor
    · rintro (⟨before, m, after, hmethods, hbefore, hm⟩ | ⟨operations, -, hs⟩)
      · exact .method hname hmethods hbefore hm
      · exact nomatch hs
    · intro hd
      cases hd with
      | nameless hempty => exact absurd hempty hname
      | method _ hmethods hbefore hm => exact .inl ⟨_, _, _, hmethods, hbefore, hm⟩

theorem outcome_reportEmpty (s : Service) : s.reportEmpty.outcome = .ok () := by
  unfold reportEmpty
  split <;> rfl

/-- Reports aside, a run takes the first service and goes on with the others. -/
theorem outcome_collectFrom_cons (custom : CustomOptions) (f : Descriptor.File) (index : Nat)
    (d : Descriptor.Service) (rest : List Descriptor.Service) :
    (collectFrom custom f index (d :: rest)).outcome =
      ofDeclaration custom f index d >>= fun s =>
        (collectFrom custom f (index + 1) rest).outcome >>= fun more => .ok (s :: more) := by
  rw [collectFrom, Traced.outcome_bind, Traced.outcome_ofExcept]
  congr 1
  funext s
  rw [Traced.outcome_bind_ok (outcome_reportEmpty s), Traced.outcome_bind]
  rfl

theorem stepwise_collectFrom (custom : CustomOptions) (f : Descriptor.File) :
    Stepwise (fun before declared => (collectFrom custom f before.length declared).outcome)
      (·.toService custom f) (fun before => ∀ d ∈ before, d.IsUnary)
      (fun before d => d.Rejected f before.length) where
  nil _ := rfl
  refused _ hd _ := by
    rw [outcome_collectFrom_cons, ofDeclaration_eq_error_iff.mpr hd]
    rfl
  passed {before d} hall _ := by
    have hd : d.IsUnary := hall d (by simp)
    rw [outcome_collectFrom_cons, ofDeclaration_eq_ok_iff.mpr ⟨hd, rfl⟩, List.length_append]
    rfl
  next {before} hbefore d := by
    cases hdeclared : ofDeclaration custom f before.length d with
    | error fault => exact .inl ⟨fault, ofDeclaration_eq_error_iff.mp hdeclared⟩
    | ok s =>
      refine .inr ?_
      rw [List.forall_mem_append, List.forall_mem_singleton]
      exact ⟨hbefore, (ofDeclaration_eq_ok_iff.mp hdeclared).1⟩
  part hall d hd := hall d (List.mem_append_left _ hd)

end Declared

theorem outcome_reportUnavailable (custom : CustomOptions) (f : Descriptor.File) :
    (reportUnavailable custom f).outcome = .ok () := by
  unfold reportUnavailable
  split <;> rfl

theorem outcome_collect (custom : CustomOptions) (f : Descriptor.File) :
    (collect custom f).outcome = (collectFrom custom f 0 f.services).outcome := by
  rw [collect, Traced.outcome_bind_ok (outcome_reportUnavailable custom f), Traced.outcome_bind]
  cases (collectFrom custom f 0 f.services).outcome <;> rfl

section File

variable {f : Descriptor.File} {services : List Service}

theorem collect_eq_ok_iff :
    (collect custom f).outcome = .ok services ↔
      (∀ d ∈ f.services, d.IsUnary) ∧ services = f.services.map (·.toService custom f) := by
  rw [outcome_collect]
  exact (stepwise_collectFrom custom f).eq_ok_iff (List.forall_mem_nil _)

theorem collect_eq_error_iff :
    (collect custom f).outcome = .error fault ↔
      ∃ before d after, f.services = before ++ d :: after ∧ (∀ x ∈ before, x.IsUnary) ∧
        d.Rejected f before.length fault := by
  rw [outcome_collect]
  exact (stepwise_collectFrom custom f).eq_error_iff (List.forall_mem_nil _)

/-- Services that can be collected are the declared ones, in their order. -/
theorem collect_eq (h : (collect custom f).outcome = .ok services) :
    services = f.services.map (·.toService custom f) :=
  (collect_eq_ok_iff.mp h).2

theorem nodup_of_collect (h : (collect custom f).outcome = .ok services) :
    ∀ d ∈ f.services, (d.methods.map (·.name)).Nodup := by
  intro d hd
  exact ((collect_eq_ok_iff.mp h).1 d hd).methods.distinct

end File

/-- The services of a file are collected exactly if all of them are usable, and then they are
    the declared ones with the declared methods, in their order. Otherwise the first service
    that is not usable is at fault, and one such service is enough for there to be none. -/
theorem collect_exact (custom : CustomOptions) (f : Descriptor.File) :
    (∀ services, (collect custom f).outcome = .ok services ↔
        (∀ d ∈ f.services, d.IsUnary) ∧
          services = f.services.map fun d =>
            { fullName := qualify f.package d.name
              name := d.name
              package := f.package
              file := f.name
              chosenName := custom.serviceName? (qualify f.package d.name)
              operations := d.methods.map fun m =>
                { methodName := m.name
                  inputType := m.inputType
                  outputType := m.outputType
                  chosenName := custom.operationName? (qualify f.package d.name) m.name } }) ∧
      (∀ fault, (collect custom f).outcome = .error fault ↔
        ∃ before d after, f.services = before ++ d :: after ∧ (∀ x ∈ before, x.IsUnary) ∧
          d.Rejected f before.length fault) ∧
      ∀ d ∈ f.services, ¬ d.IsUnary → ∃ fault, (collect custom f).outcome = .error fault := by
  refine ⟨fun services => collect_eq_ok_iff, fun fault => collect_eq_error_iff, ?_⟩
  intro d hd hbad
  cases houtcome : (collect custom f).outcome with
  | error fault => exact ⟨fault, rfl⟩
  | ok services => exact absurd ((collect_eq_ok_iff.mp houtcome).1 d hd) hbad

/-- A usable service, and one with a second `Buy` that has no types and streams. -/
def halfUsable : Descriptor.File where
  name := "shop.proto"
  package := "shop"
  version := some .proto3
  dependencies := []
  publicDependencies := []
  weakDependencies := []
  messages := []
  enums := []
  services :=
    [⟨"Stock", [⟨"Count", ".shop.Cart", ".shop.Cart", false, false, []⟩], []⟩,
      ⟨"Shop", [⟨"Buy", ".shop.Cart", ".shop.Cart", false, false, []⟩,
        ⟨"Buy", "", "", true, false, []⟩], []⟩]
  extensions := []
  goPackage := ""
  options := []
  optionsWithinLimit := true

theorem collect_exact_halfUsable :
    (∃ d ∈ halfUsable.services, d.IsUnary) ∧
      (∃ d ∈ halfUsable.services, ¬ d.IsUnary ∧
        ∃ fault, (collect CustomOptions.none halfUsable).outcome = .error fault) ∧
      (collect CustomOptions.none halfUsable).outcome =
        .error (.malformedDescriptor "method shop.Shop.Buy is declared more than once") := by
  obtain ⟨-, hfault, hnone⟩ := collect_exact CustomOptions.none halfUsable
  have hfirst : ∀ d ∈ halfUsable.services.take 1, d.IsUnary := by decide
  refine ⟨⟨_, List.mem_cons_self, hfirst _ List.mem_cons_self⟩, ?_, ?_⟩
  · have hbad : ¬ (halfUsable.services[1]).IsUnary := by decide
    exact ⟨_, List.getElem_mem _, hbad, hnone _ (List.getElem_mem _) hbad⟩
  · refine (hfault _).mpr ⟨halfUsable.services.take 1, halfUsable.services[1], [], rfl, hfirst, ?_⟩
    have hbefore : UnaryMethods (halfUsable.services[1].methods.take 1) := ⟨by decide, by decide⟩
    exact .method (by decide) rfl hbefore (.repeated (by decide) (by decide))

end Service

end GoBindings
