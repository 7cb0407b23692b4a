/-
  GoBindings/Proofs/RuntimeNames.lean
  ===================================
  **Runtime names go nowhere but into constants.**

  Names that a source chooses and the template decide what services and operations are called
  at run time. Two runs over one file that differ in these alone are followed step by step.
  What they have in hand is the same once the runtime names are left out (`redacted`), so they
  end alike: with related results or over the same fault, unless one of them cannot use a
  runtime name (`Alike`). In particular they make the same claims, and a claim is granted to
  one exactly if it is granted to the other.

  In the text only the line of a constant has a runtime name, as a literal that stays on the
  line. So the texts are the same line by line, up to the values of constants.
-/
import GoBindings.Proofs.Bindings
import GoBindings.Proofs.Faults

namespace GoBindings

open Document (oneLine_literal)
open Text (OneLine)

variable {α β γ δ : Type}

/-! ### Outcomes that are alike -/

/-- Two runs end with related results or over the same fault, or one of them over a runtime
    name. -/
inductive Alike (R : α → β → Prop) : Except Fault α → Except Fault β → Prop
  | ok {a : α} {b : β} (h : R a b) : Alike R (.ok a) (.ok b)
  | fault (fault : Fault) : Alike R (.error fault) (.error fault)
  | left {fault : Fault} {y : Except Fault β} (h : fault.IsRuntimeName) :
      Alike R (.error fault) y
  | right {x : Except Fault α} {fault : Fault} (h : fault.IsRuntimeName) :
      Alike R x (.error fault)

namespace Alike

variable {R : α → β → Prop} {S : γ → δ → Prop} {x : Except Fault α} {y : Except Fault β}

theorem bind {f : α → Except Fault γ} {g : β → Except Fault δ} (h : Alike R x y)
    (hfg : ∀ a b, x = .ok a → y = .ok b → R a b → Alike S (f a) (g b)) :
    Alike S (x >>= f) (y >>= g) := by
  cases h with
  | ok hab => exact hfg _ _ rfl rfl hab
  | fault fault => exact .fault fault
  | left hname => exact .left hname
  | right hname => exact .right hname

/-- A step that is the same in both runs. -/
theorem bind_same {f : α → Except Fault γ} {g : α → Except Fault δ}
    (hfg : ∀ a, Alike S (f a) (g a)) : Alike S (x >>= f) (x >>= g) := by
  cases x with
  | error fault => exact .fault fault
  | ok a => exact hfg a

theorem bind_outcome {t : Traced α} {u : Traced β} {f : α → Traced γ} {g : β → Traced δ}
    (h : Alike R t.outcome u.outcome)
    (hfg : ∀ a b, t.outcome = .ok a → u.outcome = .ok b → R a b →
      Alike S (f a).outcome (g b).outcome) :
    Alike S (t >>= f).outcome (u >>= g).outcome := by
  rw [Traced.outcome_bind, Traced.outcome_bind]
  exact bind h hfg

theorem bind_outcome_same {t : Traced α} {f : α → Traced γ} {g : α → Traced δ}
    (hfg : ∀ a, Alike S (f a).outcome (g a).outcome) :
    Alike S (t >>= f).outcome (t >>= g).outcome := by
  rw [Traced.outcome_bind, Traced.outcome_bind]
  exact bind_same hfg

theorem report {e e' : Event} {f : Unit → Traced γ} {g : Unit → Traced δ}
    (h : Alike S (f ()).outcome (g ()).outcome) :
    Alike S (Traced.report e >>= f).outcome (Traced.report e' >>= g).outcome := h

theorem of_ok {a : α} {b : β} (h : Alike R (.ok a) (.ok b)) : R a b := by
  cases h with
  | ok hab => exact hab

/-- A fault that is not over a runtime name is met by both runs, unless the other one does not
    come that far. -/
theorem of_error {fault : Fault} (h : Alike R (.error fault) y) (hother : ¬ fault.IsRuntimeName) :
    y = .error fault ∨ ∃ earlier, earlier.IsRuntimeName ∧ y = .error earlier := by
  cases h with
  | fault => exact .inl rfl
  | left hname => exact absurd hname hother
  | right hname => exact .inr ⟨_, hname, rfl⟩

end Alike

/-! ### Leaving runtime names out -/

def Operation.redacted (op : Operation) : Operation := { op with chosenName := none }

def Service.redacted (s : Service) : Service :=
  { s with chosenName := none, operations := s.operations.map (·.redacted) }

def OperationNames.redacted (n : OperationNames) : OperationNames := { n with operationName := "" }

def NamedOperation.redacted (op : NamedOperation) : NamedOperation :=
  ⟨op.operation.redacted, op.names.redacted⟩

def NamedService.redacted (n : NamedService) : NamedService :=
  ⟨n.service.redacted, n.names, n.operations.map (·.redacted)⟩

def BoundOperation.redacted (op : BoundOperation) : BoundOperation :=
  { op with names := op.names.redacted }

def BoundService.redacted (s : BoundService) : BoundService :=
  ⟨s.service.redacted, s.names, s.operations.map (·.redacted)⟩

def Document.redacted (d : Document) : Document :=
  { d with services := d.services.map (·.redacted) }

def Environment.Draft.redacted (d : Environment.Draft) : Environment.Draft :=
  { d with services := d.services.map (·.redacted) }

/-- The claims of a service do not tell its runtime names. -/
theorem Registry.serviceClaims_redacted (path : String) (n : NamedService) :
    serviceClaims path n.redacted = serviceClaims path n := by
  rw [serviceClaims, NamedService.redacted, List.map_map]
  rfl

theorem Environment.Draft.claims_redacted (d : Draft) : d.redacted.claims = d.claims := by
  rw [claims, redacted, List.flatMap_map]
  exact List.flatMap_congr fun n _ => Registry.serviceClaims_redacted _ n

/-! ### Collecting -/

namespace Service

variable {custom custom' : CustomOptions}

/-- Whether services can be collected is a matter of the declarations, and so is what they are. -/
theorem alike_collect (f : Descriptor.File) :
    Alike (fun a b => a.map (·.redacted) = b.map (·.redacted)) (collect custom f).outcome
      (collect custom' f).outcome := by
  cases houtcome : (collect custom f).outcome with
  | ok services =>
    obtain ⟨hunary, rfl⟩ := collect_eq_ok_iff.mp houtcome
    rw [collect_eq_ok_iff.mpr ⟨hunary, rfl⟩]
    refine .ok ?_
    rw [List.map_map, List.map_map]
    refine List.map_congr_left fun d _ => ?_
    simp [redacted, Operation.redacted, Descriptor.Service.toService,
      Descriptor.Method.toOperation]
  | error fault =>
    rw [collect_eq_error_iff.mpr (collect_eq_error_iff.mp houtcome)]
    exact .fault fault

/-! ### Naming -/

variable {settings settings' : Settings} {s s' : Service}

theorem alike_nameOperation (hs : s.redacted = s'.redacted) {op op' : Operation}
    (hop : op.redacted = op'.redacted) {taken taken' : Taken}
    (htaken : taken.methods = taken'.methods) :
    Alike (fun a b => a.1.redacted = b.1.redacted ∧ a.2.methods = b.2.methods)
      (s.nameOperation settings taken op) (s'.nameOperation settings' taken' op') := by
  have hname : s.name = s'.name := congrArg (·.name) hs
  have hfull : s.fullName = s'.fullName := congrArg (·.fullName) hs
  have hmethod : op.methodName = op'.methodName := congrArg (·.methodName) hop
  unfold nameOperation
  dsimp only
  split
  case isTrue => exact .left (.empty _)
  case isFalse =>
    split
    case h_1 => exact .left (.repeated _ _ _ _)
    case h_2 =>
      split
      case isTrue => exact .right (.empty _)
      case isFalse =>
        split
        case h_1 => exact .right (.repeated _ _ _ _)
        case h_2 =>
          -- from here on a runtime name is written down, but looked at no more
          simp only [operationOrigin, hname, hfull, hmethod, htaken]
          refine .bind_same fun first => .bind_same fun second => .bind_same fun third => .ok ?_
          exact ⟨by rw [NamedOperation.redacted, NamedOperation.redacted, hop]; rfl, rfl⟩

theorem alike_nameOperations (hs : s.redacted = s'.redacted) {ops ops' : List Operation}
    (hops : ops.map (·.redacted) = ops'.map (·.redacted)) {taken taken' : Taken}
    (htaken : taken.methods = taken'.methods) :
    Alike (fun a b => a.map (·.redacted) = b.map (·.redacted))
      (s.nameOperations settings taken ops).outcome
      (s'.nameOperations settings' taken' ops').outcome := by
  induction ops generalizing ops' taken taken' with
  | nil =>
    obtain rfl := List.map_eq_nil_iff.mp hops.symm
    exact .ok rfl
  | cons op rest ih =>
    obtain ⟨op', rest', rfl, hop, hrest⟩ := List.map_eq_cons_iff.mp hops.symm
    refine .bind_outcome (alike_nameOperation hs hop.symm htaken) ?_
    rintro ⟨named, next⟩ ⟨named', next'⟩ _ _ ⟨hnamed, hnext⟩
    refine .report (.bind_outcome (ih hrest.symm hnext) fun more more' _ _ hmore => ?_)
    exact .ok (by rw [List.map_cons, List.map_cons, hnamed, hmore])

theorem alike_resolve (hs : s.redacted = s'.redacted) :
    Alike (fun a b => a.redacted = b.redacted) (s.resolve settings).outcome
      (s'.resolve settings').outcome := by
  have hname : s.name = s'.name := congrArg (·.name) hs
  have hops : s.operations.map (·.redacted) = s'.operations.map (·.redacted) :=
    congrArg (·.operations) hs
  refine .bind_outcome (alike_nameOperations hs hops rfl) fun named named' _ _ hnamed => .ok ?_
  rw [NamedService.redacted, NamedService.redacted, hs, hname, hnamed]

end Service

namespace Environment

theorem alike_nameServices {settings settings' : Settings} {services services' : List Service}
    (h : services.map (·.redacted) = services'.map (·.redacted)) :
    Alike (fun a b => a.map (·.redacted) = b.map (·.redacted))
      (nameServices settings services).outcome (nameServices settings' services').outcome := by
  induction services generalizing services' with
  | nil =>
    obtain rfl := List.map_eq_nil_iff.mp h.symm
    exact .ok rfl
  | cons s rest ih =>
    obtain ⟨s', rest', rfl, hs, hrest⟩ := List.map_eq_cons_iff.mp h.symm
    refine .bind_outcome (Service.alike_resolve hs.symm) fun named named' _ _ hnamed => ?_
    exact .bind_outcome (ih hrest.symm) fun more more' _ _ hmore =>
      .ok (by rw [List.map_cons, List.map_cons, hnamed, hmore])

/-! ### Mapping types -/

theorem alike_bindOperations {mapper : TypeMapper} {s s' : Service}
    (hfull : s.fullName = s'.fullName) {ops ops' : List NamedOperation}
    (hops : ops.map (·.redacted) = ops'.map (·.redacted)) (imports : Go.Imports) :
    Alike (fun a b => a.1.map (·.redacted) = b.1.map (·.redacted) ∧ a.2 = b.2)
      (bindOperations mapper s imports ops).outcome
      (bindOperations mapper s' imports ops').outcome := by
  induction ops generalizing ops' imports with
  | nil =>
    obtain rfl := List.map_eq_nil_iff.mp hops.symm
    exact .ok ⟨rfl, rfl⟩
  | cons op rest ih =>
    obtain ⟨op', rest', rfl, hop, hrest⟩ := List.map_eq_cons_iff.mp hops.symm
    have hmethod : op.operation.methodName = op'.operation.methodName :=
      congrArg (·.operation.methodName) hop.symm
    have hinput : op.operation.inputType = op'.operation.inputType :=
      congrArg (·.operation.inputType) hop.symm
    have houtput : op.operation.outputType = op'.operation.outputType :=
      congrArg (·.operation.outputType) hop.symm
    have hnames : op.names.redacted = op'.names.redacted := congrArg (·.names) hop.symm
    unfold bindOperations
    rw [hfull, hmethod, hinput, houtput]
    refine .bind_outcome_same fun input => .bind_outcome_same fun output => ?_
    refine .bind_outcome (ih hrest.symm output.2) ?_
    rintro ⟨more, last⟩ ⟨more', last'⟩ _ _ ⟨hmore, hlast⟩
    refine .ok ⟨?_, hlast⟩
    rw [List.map_cons, List.map_cons, hmore, BoundOperation.redacted, BoundOperation.redacted,
      hnames]

theorem alike_bindServices {mapper : TypeMapper} {services services' : List NamedService}
    (h : services.map (·.redacted) = services'.map (·.redacted)) (imports : Go.Imports) :
    Alike (fun a b => a.1.map (·.redacted) = b.1.map (·.redacted) ∧ a.2 = b.2)
      (bindServices mapper imports services).outcome
      (bindServices mapper imports services').outcome := by
  induction services generalizing services' imports with
  | nil =>
    obtain rfl := List.map_eq_nil_iff.mp h.symm
    exact .ok ⟨rfl, rfl⟩
  | cons n rest ih =>
    obtain ⟨n', rest', rfl, hn, hrest⟩ := List.map_eq_cons_iff.mp h.symm
    have hservice : n.service.redacted = n'.service.redacted := congrArg (·.service) hn.symm
    have hnames : n.names = n'.names := congrArg (·.names) hn.symm
    have hops : n.operations.map (·.redacted) = n'.operations.map (·.redacted) :=
      congrArg (·.operations) hn.symm
    refine .bind_outcome (alike_bindOperations (congrArg (·.fullName) hservice) hops imports) ?_
    rintro ⟨ops, mid⟩ ⟨ops', mid'⟩ _ _ ⟨hbound, rfl⟩
    refine .report (.bind_outcome (ih hrest.symm mid) ?_)
    rintro ⟨more, last⟩ ⟨more', last'⟩ _ _ ⟨hmore, hlast⟩
    refine .ok ⟨?_, hlast⟩
    rw [List.map_cons, List.map_cons, hmore, BoundService.redacted, BoundService.redacted,
      hservice, hnames, hbound]

/-! ### One file -/

/-- The environment with another pool and another template. -/
def choosing (env : Environment) (custom : CustomOptions) (template : Template) : Environment :=
  { env with custom, settings := { env.settings with template } }

variable {env : Environment} {custom custom' : CustomOptions} {template template' : Template}

theorem alike_draft (f : Descriptor.File) :
    Alike (fun a b => a.map (·.redacted) = b.map (·.redacted))
      ((env.choosing custom template).draft f).outcome
      ((env.choosing custom' template').draft f).outcome := by
  refine .bind_outcome (Service.alike_collect f) fun services services' _ _ hservices => ?_
  have hempty : services.isEmpty = services'.isEmpty := by
    rw [← List.isEmpty_map (f := (·.redacted)), hservices, List.isEmpty_map]
  rw [hempty]
  split
  case isTrue => exact .ok rfl
  case isFalse =>
    refine .bind_outcome_same fun name => ?_
    refine .bind_outcome (alike_nameServices hservices) fun named named' _ _ hnamed => .ok ?_
    rw [Option.map_some, Option.map_some, Draft.redacted, Draft.redacted, hnamed]
    rfl

theorem Draft.claim_congr {d d' : Draft} (h : d.redacted = d'.redacted) (r : Registry) :
    d.claim (env.choosing custom template) r = d'.claim (env.choosing custom' template') r := by
  have hpackage : d.package = d'.package := congrArg (·.package) h
  have hclaims : d.claims = d'.claims := by
    rw [← d.claims_redacted, h, d'.claims_redacted]
  rw [claim_eq, claim_eq, hpackage, hclaims]
  rfl

theorem Draft.alike_document {d d' : Draft} (h : d.redacted = d'.redacted) :
    Alike (fun a b => a.redacted = b.redacted) (d.document (env.choosing custom template)).outcome
      (d'.document (env.choosing custom' template')).outcome := by
  have hsource : d.source = d'.source := congrArg (·.source) h
  have hpackage : d.package = d'.package := congrArg (·.package) h
  have hservices : d.services.map (·.redacted) = d'.services.map (·.redacted) :=
    congrArg (·.services) h
  unfold document
  rw [hpackage, hsource]
  refine .bind_outcome (alike_bindServices hservices Go.Imports.framework) ?_
  rintro ⟨bound, imports⟩ ⟨bound', imports'⟩ _ _ ⟨hbound, rfl⟩
  refine .ok ?_
  rw [Document.redacted, Document.redacted, hbound]
  rfl

end Environment

/-! ### Lines -/

/-- The lines are the same, or constants with the same name. -/
inductive SameButValue : String → String → Prop
  | same (line : String) : SameButValue line line
  | constant (name value value' : String) :
      SameButValue ("const " ++ name ++ " = " ++ value) ("const " ++ name ++ " = " ++ value')

/-- Written one below the other, the texts have the same lines up to the values of constants. -/
def LinesAlike (ls ms : List String) : Prop :=
  List.Forall₂ SameButValue (ls.flatMap (Text.split '\n')) (ms.flatMap (Text.split '\n'))

namespace LinesAlike

variable {ls ls' ms ms' : List String}

theorem refl (ls : List String) : LinesAlike ls ls :=
  List.forall₂_same.mpr fun line _ => .same line

theorem append (h : LinesAlike ls ms) (h' : LinesAlike ls' ms') :
    LinesAlike (ls ++ ls') (ms ++ ms') := by
  unfold LinesAlike
  rw [List.flatMap_append, List.flatMap_append]
  exact List.rel_append h h'

theorem flatMap {f g : α → List String} {key : α → β} {xs ys : List α}
    (h : xs.map key = ys.map key)
    (hfg : ∀ a ∈ xs, ∀ b ∈ ys, key a = key b → LinesAlike (f a) (g b)) :
    LinesAlike (xs.flatMap f) (ys.flatMap g) := by
  induction xs generalizing ys with
  | nil =>
    obtain rfl := List.map_eq_nil_iff.mp h.symm
    exact .refl []
  | cons x xs ih =>
    obtain ⟨y, ys, rfl, hy, hys⟩ := List.map_eq_cons_iff.mp h.symm
    rw [List.flatMap_cons, List.flatMap_cons]
    refine (hfg x List.mem_cons_self y List.mem_cons_self hy.symm).append (ih hys.symm ?_)
    intro a ha b hb
    exact hfg a (List.mem_cons_of_mem x ha) b (List.mem_cons_of_mem y hb)

/-- Two values of a constant are both on its line. -/
theorem constant {name : String} (hname : OneLine name) (value value' : String) :
    LinesAlike [Document.constantLine name value] [Document.constantLine name value'] := by
  have hline : ∀ value, OneLine (Document.constantLine name value) := by
    intro value
    simp only [Document.constantLine, Text.oneLine_append, hname, oneLine_literal, and_true]
    exact ⟨Text.oneLine_ofList rfl, Text.oneLine_ofList rfl⟩
  unfold LinesAlike
  rw [List.flatMap_singleton, List.flatMap_singleton, Text.split_of_oneLine (hline value),
    Text.split_of_oneLine (hline value')]
  exact .cons (.constant name _ _) .nil

end LinesAlike

/-! ### Text -/

/-- The names of the constants of a service are on one line each. -/
structure BoundService.OneLineConstants (s : BoundService) : Prop where
  service : OneLine s.names.serviceNameConst
  operations : ∀ op ∈ s.operations, OneLine op.names.operationNameConst

namespace Document

variable {fw : Framework} {s s' : BoundService} {d d' : Document}

theorem linesAlike_serviceConstant (h : s.redacted = s'.redacted) (hs : s.OneLineConstants) :
    LinesAlike (serviceConstant s) (serviceConstant s') := by
  have hnames : s.names = s'.names := congrArg (·.names) h
  have hfull : s.service.fullName = s'.service.fullName := congrArg (·.service.fullName) h
  unfold serviceConstant
  rw [← hnames, ← hfull]
  exact (LinesAlike.refl ["", _]).append (.constant hs.service _ _)

theorem linesAlike_operationConstant (h : s.redacted = s'.redacted) {op op' : BoundOperation}
    (hop : op.redacted = op'.redacted) (hname : OneLine op.names.operationNameConst) :
    LinesAlike (operationConstant s op) (operationConstant s' op') := by
  have hfull : s.service.fullName = s'.service.fullName := congrArg (·.service.fullName) h
  have hmethod : op.methodName = op'.methodName := congrArg (·.methodName) hop
  have hconst : op.names.operationNameConst = op'.names.operationNameConst :=
    congrArg (·.names.operationNameConst) hop
  unfold operationConstant
  rw [← hfull, ← hmethod, ← hconst]
  exact (LinesAlike.refl ["", _]).append (.constant hname _ _)

/-- The lines of a service behind its constants. -/
def codeLines (fw : Framework) (s : BoundService) : List String :=
  clientLines fw s ++ handlerLines fw s ++ registerLines fw s

theorem codeLines_redacted (fw : Framework) (s : BoundService) :
    codeLines fw s.redacted = codeLines fw s := by
  simp only [codeLines, clientLines, handlerLines, registerLines, registrationCall,
    BoundService.redacted, List.flatMap_map, List.map_map, List.isEmpty_map]
  rfl

theorem linesAlike_serviceLines (h : s.redacted = s'.redacted) (hs : s.OneLineConstants) :
    LinesAlike (serviceLines fw s) (serviceLines fw s') := by
  have hsplit : ∀ s, serviceLines fw s =
      serviceConstant s ++ s.operations.flatMap (operationConstant s) ++ codeLines fw s := by
    intro s
    simp only [serviceLines, codeLines, List.append_assoc]
  have hcode : codeLines fw s = codeLines fw s' := by
    rw [← codeLines_redacted, h, codeLines_redacted]
  have hops : s.operations.map (·.redacted) = s'.operations.map (·.redacted) :=
    congrArg (·.operations) h
  rw [hsplit, hsplit, hcode]
  refine ((linesAlike_serviceConstant h hs).append (.flatMap hops ?_)).append (.refl _)
  intro op hop op' _ hsame
  exact linesAlike_operationConstant h hsame (hs.operations op hop)

/-- Documents that differ in runtime names have the same lines up to the values of constants. -/
theorem linesAlike_render (h : d.redacted = d'.redacted)
    (hconstants : ∀ s ∈ d.services, s.OneLineConstants) :
    List.Forall₂ SameButValue (Text.split '\n' d.render) (Text.split '\n' d'.render) := by
  have hheader : d.headerLines = d'.headerLines := (congrArg headerLines h :)
  have hframework : d.framework = d'.framework := (congrArg framework h :)
  have hservices : d.services.map (·.redacted) = d'.services.map (·.redacted) :=
    congrArg (·.services) h
  have hlines : LinesAlike d.lines d'.lines := by
    unfold lines
    rw [hheader, hframework]
    refine (LinesAlike.refl _).append (.flatMap hservices ?_)
    intro s hs s' _ hsame
    exact linesAlike_serviceLines hsame (hconstants s hs)
  rw [render_eq_unlines, render_eq_unlines, Text.split_unlines, Text.split_unlines]
  exact List.rel_append hlines (.cons (.same "") .nil)

end Document

/-! ### One file, twice -/

namespace Environment

variable {env : Environment} {custom custom' : CustomOptions} {template template' : Template}

/-- Names on one line each give constants whose names are. -/
theorem oneLineConstants {f : Descriptor.File} {d : Draft} {document : Document}
    (hdraft : (env.draft f).outcome = .ok (some d))
    (hdocument : (d.document env).outcome = .ok document)
    (hnames : ∀ s ∈ f.services, OneLine s.name ∧ ∀ m ∈ s.methods, OneLine m.name) :
    ∀ s ∈ document.services, s.OneLineConstants := by
  obtain ⟨-, -, hbound⟩ := document_eq hdocument
  rw [congrArg Document.services hbound, (draft_services hdraft).1, List.map_map]
  rw [List.forall_mem_map]
  intro declared hdeclared
  obtain ⟨hname, hmethods⟩ := hnames declared hdeclared
  have hgo : OneLine (Go.camelCase declared.name) := Go.oneLine_camelCase hname
  refine ⟨Text.oneLine_append.mpr ⟨hgo, Text.oneLine_ofList rfl⟩, ?_⟩
  intro op hop
  obtain ⟨named, hnamed, rfl⟩ := List.mem_map.mp hop
  obtain ⟨operation, hoperation, rfl⟩ := List.mem_map.mp hnamed
  obtain ⟨m, hm, rfl⟩ := List.mem_map.mp hoperation
  exact Text.oneLine_append.mpr ⟨Text.oneLine_append.mpr
    ⟨hgo, Go.oneLine_camelCase (hmethods m hm)⟩, Text.oneLine_ofList rfl⟩

/-- The runs leave the same registry, and the same output up to the values of constants. -/
theorem alike_generateFile (r : Registry) (f : Descriptor.File) :
    Alike (fun a b => a.2 = b.2 ∧ a.1.map (·.name) = b.1.map (·.name) ∧
        ((∀ s ∈ f.services, OneLine s.name ∧ ∀ m ∈ s.methods, OneLine m.name) →
          ∀ output ∈ a.1, ∀ output' ∈ b.1, List.Forall₂ SameButValue
            (Text.split '\n' output.content) (Text.split '\n' output'.content)))
      ((env.choosing custom template).generateFile r f).outcome
      ((env.choosing custom' template').generateFile r f).outcome := by
  rw [generateFile_eq, generateFile_eq]
  refine .bind_outcome (alike_draft f) fun drafted drafted' hdraft hdraft' h => ?_
  cases drafted with
  | none =>
    obtain rfl := Option.map_eq_none_iff.mp h.symm
    exact .ok ⟨rfl, rfl, fun _ output houtput => nomatch houtput⟩
  | some d =>
    obtain ⟨d', rfl, hd'⟩ := Option.map_eq_some_iff.mp h.symm
    have hd : d.redacted = d'.redacted := hd'.symm
    have hname : d.name = d'.name := congrArg (·.name) hd
    unfold finish
    dsimp only
    rw [Draft.claim_congr hd r]
    refine .bind_outcome_same fun claimed => ?_
    refine .bind_outcome (Draft.alike_document hd) ?_
    intro document document' hdocument _ hsame
    refine .ok ⟨rfl, congrArg some hname, ?_⟩
    rintro hnames _ ⟨⟩ _ ⟨⟩
    exact Document.linesAlike_render hsame (oneLineConstants hdraft hdocument hnames)

/-- Whatever the pool chooses and the template gives, runtime names are found behind the equals
    signs of constants and nowhere else: not in the name of the output, not in its other lines and
    not in the registry. A fault over anything but a runtime name is met as well with other runtime
    names, if none of these is a fault itself. -/
theorem runtimeNames_confined (env : Environment) (custom custom' : CustomOptions)
    (template template' : Template) (r : Registry) (f : Descriptor.File)
    (hnames : ∀ s ∈ f.services, OneLine s.name ∧ ∀ m ∈ s.methods, OneLine m.name) :
    (∀ output output' next next',
      ((env.choosing custom template).generateFile r f).outcome = .ok (output, next) →
      ((env.choosing custom' template').generateFile r f).outcome = .ok (output', next') →
        next = next' ∧ output.map (·.name) = output'.map (·.name) ∧
          ∀ a ∈ output, ∀ b ∈ output', List.Forall₂ SameButValue
            (Text.split '\n' a.content) (Text.split '\n' b.content)) ∧
      ∀ fault, ((env.choosing custom template).generateFile r f).outcome = .error fault →
        ¬ fault.IsRuntimeName →
          ((env.choosing custom' template').generateFile r f).outcome = .error fault ∨
            ∃ earlier, earlier.IsRuntimeName ∧
              ((env.choosing custom' template').generateFile r f).outcome = .error earlier := by
  have halike := @alike_generateFile env custom custom' template template' r f
  constructor
  · intro output output' next next' h h'
    rw [h, h'] at halike
    obtain ⟨hnext, hname, hcontent⟩ := halike.of_ok
    exact ⟨hnext, hname, hcontent hnames⟩
  · intro fault h hother
    rw [h] at halike
    exact halike.of_error hother

/-- A file that declares nothing. -/
def bareFile (name package : String) : Descriptor.File where
  name
  package
  version := some .proto3
  dependencies := []
  publicDependencies := []
  weakDependencies := []
  messages := []
  enums := []
  services := []
  extensions := []
  goPackage := ""
  options := []
  optionsWithinLimit := true

/-- A shop with a service, whose runtime name is a quote and a line break. -/
def quotingShop : Descriptor.File :=
  { bareFile "shop.proto" "shop" with
    messages := [⟨"Cart", [], [], [], [], [], [], [], false, []⟩]
    services := [⟨"Shop", [⟨"Order", ".shop.Cart", ".shop.Cart", false, false, []⟩],
      Wire.writeBytes 52001 (Wire.writeText 1 "\"\n")⟩]
    goPackage := "example.com/shop" }

/-- The shop, behind the declarations that its choice of a name is read with. -/
def quotingFiles : List Descriptor.File :=
  [{ bareFile "google/protobuf/descriptor.proto" "google.protobuf" with
      messages := [⟨"ServiceOptions", [], [], [], [], [], [⟨1000, 536870912, []⟩], [], false, []⟩] },
    { bareFile "nexus/temporal/v1/options.proto" "nexus.temporal.v1" with
      dependencies := ["google/protobuf/descriptor.proto"]
      messages := [⟨"ServiceOptions", [⟨"name", 1, false, none, .scalar .string, "", none, none,
        none, none, false, []⟩], [], [], [], [], [], [], false, []⟩]
      extensions := [⟨"service", 52001, false, none, .message,
        ".nexus.temporal.v1.ServiceOptions", some ".google.protobuf.ServiceOptions", none, none,
        none, false, []⟩] },
    quotingShop]

def quotingRun (custom : CustomOptions) (template : Template) :
    Except Fault (Option OutputFile × Registry) :=
  (((build quotingFiles Settings.standard none).choosing custom template).generateFile
    Registry.empty quotingShop).outcome

/-- The shop has one output, whether or not its choice is read and whatever the template gives. -/
theorem runtimeNames_confined_quoting :
    (CustomOptions.build quotingFiles).serviceName? "shop.Shop" = some "\"\n" ∧
      ∃ a b next,
        quotingRun (CustomOptions.build quotingFiles) Template.byMethod = .ok (some a, next) ∧
        quotingRun CustomOptions.none ⟨"\n", [.literal "\n"]⟩ = .ok (some b, next) ∧
        a.name = b.name ∧
        List.Forall₂ SameButValue (Text.split '\n' a.content) (Text.split '\n' b.content) := by
  have houtput : ∀ run : Except Fault (Option OutputFile × Registry),
      (run.toOption.bind (·.1)).isSome → ∃ a next, run = .ok (some a, next) := by
    rintro (fault | ⟨_ | a, next⟩) hsome
    · exact nomatch hsome
    · exact nomatch hsome
    · exact ⟨a, next, rfl⟩
  obtain ⟨a, next, ha⟩ :=
    houtput (quotingRun (CustomOptions.build quotingFiles) Template.byMethod) (by decide +kernel)
  obtain ⟨b, next', hb⟩ :=
    houtput (quotingRun CustomOptions.none ⟨"\n", [.literal "\n"]⟩) (by decide +kernel)
  obtain ⟨hconfined, -⟩ := runtimeNames_confined (build quotingFiles Settings.standard none)
    (CustomOptions.build quotingFiles) CustomOptions.none Template.byMethod
    ⟨"\n", [.literal "\n"]⟩ Registry.empty quotingShop (by decide)
  obtain ⟨rfl, hname, hcontent⟩ := hconfined _ _ _ _ ha hb
  exact ⟨by decide +kernel, a, b, next, ha, hb, Option.some.inj hname, hcontent a rfl b rfl⟩

end Environment

end GoBindings
