/-
  GoBindings/Proofs/Blocks.lean
  =============================
  **Client, handler and registration agree.**

  A reader cuts the text behind the import block into declarations, each a line with the
  lines up to its closing brace (`Block.read`). What it has to find is said service by
  service and method by method (`ServiceEntry.blocks`), with nothing but what the source
  declares: the Go names, the runtime names and the types. It finds exactly that, in the
  order of declaration.

  So the constant of a method is the one that its `Start` method calls and the one that its
  handler is registered under. The blocks of different services and methods are told apart
  by their names, which differ: those of services because the registry has granted them,
  those of methods because each service takes them once.
-/
import GoBindings.Proofs.Repetitions

namespace GoBindings

open Text (OneLine)

/-! ### Reading blocks -/

/-- A declaration of a Go file. -/
inductive Block where
  | constant (line : String)
  /-- A type or a function: the line that opens its brace, and the lines up to the closing
      one. -/
  | braced (head : String) (body : List String)
deriving DecidableEq, Repr

namespace Block

def isConstant (line : String) : Bool := (Text.dropStart? "const " line).isSome

/-- The line begins a type or a function. -/
def isOpening (line : String) : Bool :=
  (Text.dropStart? "type " line).isSome || (Text.dropStart? "func " line).isSome

def isComment (line : String) : Bool := (Text.dropStart? "//" line).isSome

/-- The line stands inside braces. -/
def isIndented (line : String) : Bool := (Text.dropStart? "\t" line).isSome

theorem isOpening_append {a : String} (h : isOpening a) (b : String) : isOpening (a ++ b) := by
  rw [isOpening, Bool.or_eq_true] at h ⊢
  exact h.imp (Text.isSome_dropStart?_append · b) (Text.isSome_dropStart?_append · b)

theorem isIndented_append {a : String} (h : isIndented a) (b : String) : isIndented (a ++ b) :=
  Text.isSome_dropStart?_append h b

@[simp] theorem isComment_slashes (s : String) : isComment ("// " ++ s) := by
  simp [isComment, Text.dropStart?, List.isPrefixOf?]

/-- The blocks in lines, where a type or function may have been begun. -/
def readFrom : Option (String × List String) → List String → List Block
  | _, [] => []
  | none, line :: rest =>
    if isConstant line then constant line :: readFrom none rest
    else if isOpening line then readFrom (some (line, [])) rest
    else readFrom none rest
  | some (head, body), line :: rest =>
    if line = "\x7d" then braced head body :: readFrom none rest
    else readFrom (some (head, body ++ [line])) rest

/-- The blocks of a text, in order. -/
def read (text : String) : List Block := readFrom none (Text.split '\n' text)

def lines : Block → List String
  | constant line => [line]
  | braced head body => head :: body ++ ["\x7d"]

/-- The reader can tell the block from its lines. -/
def Readable : Block → Prop
  | constant line => isConstant line
  | braced head body => isConstant head = false ∧ isOpening head ∧ "\x7d" ∉ body

theorem isConstant_of_isOpening {line : String} (h : isOpening line) : isConstant line = false := by
  rcases (Bool.or_eq_true _ _).mp h with htype | hfunc
  · obtain ⟨rest, hrest⟩ := Option.isSome_iff_exists.mp htype
    rw [Text.dropStart?_eq_some_iff.mp hrest]
    simp [isConstant, Text.dropStart?, List.isPrefixOf?]
  · obtain ⟨rest, hrest⟩ := Option.isSome_iff_exists.mp hfunc
    rw [Text.dropStart?_eq_some_iff.mp hrest]
    simp [isConstant, Text.dropStart?, List.isPrefixOf?]

theorem readable_braced {head : String} {body : List String} (hhead : isOpening head)
    (hbody : ∀ line ∈ body, line = "" ∨ isIndented line) : (braced head body).Readable := by
  refine ⟨isConstant_of_isOpening hhead, hhead, fun hclose => ?_⟩
  exact absurd (hbody _ hclose) (by decide)

theorem readFrom_body {head : String} {begun body : List String} (h : "\x7d" ∉ body)
    (rest : List String) :
    readFrom (some (head, begun)) (body ++ "\x7d" :: rest) =
      braced head (begun ++ body) :: readFrom none rest := by
  induction body generalizing begun with
  | nil => rw [List.nil_append, readFrom, if_pos rfl, List.append_nil]
  | cons line body ih =>
    rw [List.mem_cons, not_or] at h
    rw [List.cons_append, readFrom, if_neg (Ne.symm h.1), ih h.2, List.append_assoc]
    rfl

theorem Readable.readFrom_lines {b : Block} (h : b.Readable) (rest : List String) :
    readFrom none (b.lines ++ rest) = b :: readFrom none rest := by
  cases b with
  | constant line =>
    have hline : isConstant line := h
    rw [lines, List.singleton_append, readFrom, if_pos hline]
  | braced head body =>
    obtain ⟨hconst, hopen, hbody⟩ := h
    rw [lines, List.append_assoc, List.singleton_append, List.cons_append, readFrom, hconst, hopen,
      if_neg (by decide), if_pos rfl, readFrom_body hbody]
    rfl

/-- The lines are the blocks one after the other, each behind an empty line and a comment. -/
inductive Presents : List String → List Block → Prop
  | nil : Presents [] []
  | cons {comment : String} {b : Block} {ls : List String} {bs : List Block}
      (hcomment : isComment comment) (h : Presents ls bs) :
      Presents ("" :: comment :: (b.lines ++ ls)) (b :: bs)

theorem Presents.single {comment : String} {b : Block} (hcomment : isComment comment) :
    Presents ("" :: comment :: b.lines) [b] := by
  have h := Presents.cons (b := b) hcomment .nil
  rwa [List.append_nil] at h

theorem Presents.append {ls ms : List String} {bs cs : List Block} (h : Presents ls bs)
    (hmore : Presents ms cs) : Presents (ls ++ ms) (bs ++ cs) := by
  induction h with
  | nil => exact hmore
  | cons hcomment _ ih =>
    rw [List.cons_append, List.cons_append, List.append_assoc, List.cons_append]
    exact .cons hcomment ih

theorem Presents.flatMap {α : Type} {xs : List α} {f : α → List String} {g : α → List Block}
    (h : ∀ x ∈ xs, Presents (f x) (g x)) : Presents (xs.flatMap f) (xs.flatMap g) := by
  induction xs with
  | nil => exact .nil
  | cons x xs ih =>
    rw [List.forall_mem_cons] at h
    exact h.1.append (ih h.2)

theorem not_isOpening_of_isComment {line : String} (h : isComment line) :
    isConstant line = false ∧ isOpening line = false := by
  obtain ⟨rest, hrest⟩ := Option.isSome_iff_exists.mp h
  rw [Text.dropStart?_eq_some_iff.mp hrest]
  simp [isConstant, isOpening, Text.dropStart?, List.isPrefixOf?]

/-- Blocks are read from the lines that present them, whatever follows. -/
theorem Presents.readFrom_append {ls : List String} {bs : List Block} (h : Presents ls bs)
    (hbs : ∀ b ∈ bs, b.Readable) (rest : List String) :
    readFrom none (ls ++ rest) = bs ++ readFrom none rest := by
  induction h with
  | nil => rfl
  | @cons comment b ls bs hcomment _ ih =>
    obtain ⟨hconst, hopen⟩ := not_isOpening_of_isComment hcomment
    rw [List.forall_mem_cons] at hbs
    have hempty : isConstant "" = false ∧ isOpening "" = false := by decide
    rw [List.cons_append, readFrom, hempty.1, hempty.2, List.cons_append, readFrom, hconst, hopen,
      List.append_assoc]
    simp only [Bool.false_eq_true, if_false]
    rw [hbs.1.readFrom_lines, ih hbs.2, List.cons_append]

end Block

/-! ### What is to be found -/

theorem Document.spaced_eq_intercalate (blocks : List (List String)) :
    spaced blocks = [""].intercalate blocks := by
  induction blocks using spaced.induct with
  | case1 => rfl
  | case2 block => simp [spaced, List.intercalate]
  | case3 block rest hrest ih =>
    rw [spaced, ih]
    · cases rest with
      | nil => exact absurd rfl hrest
      | cons next rest => simp [List.intercalate]
    · exact hrest

/-- A method as the text has to present it. -/
structure MethodEntry where
  name : String
  goName : String
  runtimeName : String
  input : Go.TypeExpr
  output : Go.TypeExpr
deriving DecidableEq, Repr

/-- A service as the text has to present it. -/
structure ServiceEntry where
  goName : String
  runtimeName : String
  methods : List MethodEntry
deriving DecidableEq, Repr

namespace ServiceEntry

def constant (e : ServiceEntry) : String := e.goName ++ "ServiceName"
def client (e : ServiceEntry) : String := e.goName ++ "NexusClient"
def constructor (e : ServiceEntry) : String := "New" ++ e.goName ++ "NexusClient"
def handler (e : ServiceEntry) : String := e.goName ++ "NexusServiceHandler"
def register (e : ServiceEntry) : String := "Register" ++ e.goName ++ "NexusServiceHandler"

/-- The constant of a method. -/
def constantOf (e : ServiceEntry) (m : MethodEntry) : String :=
  e.goName ++ m.goName ++ "OperationName"

def constantBlock (name value : String) : Block :=
  .constant ("const " ++ name ++ " = " ++ Go.literal value)

def clientBlock (e : ServiceEntry) : Block :=
  .braced ("type " ++ e.client ++ " struct \x7b") ["\tclient workflow.NexusClient"]

def constructorBlock (e : ServiceEntry) : Block :=
  .braced ("func " ++ e.constructor ++ "(endpoint string) *" ++ e.client ++ " \x7b")
    ["\treturn &" ++ e.client ++ "\x7bclient: workflow.NewNexusClient(endpoint, " ++ e.constant
      ++ ")\x7d"]

def startBlock (e : ServiceEntry) (m : MethodEntry) : Block :=
  .braced
    ("func (c *" ++ e.client ++ ") Start" ++ m.goName ++ "(ctx workflow.Context, input *"
      ++ m.input.text
      ++ ", options workflow.NexusOperationOptions) workflow.NexusOperationFuture \x7b")
    ["\treturn c.client.ExecuteOperation(ctx, " ++ e.constantOf m ++ ", input, options)"]

def executeBlock (e : ServiceEntry) (m : MethodEntry) : Block :=
  .braced
    ("func (c *" ++ e.client ++ ") Execute" ++ m.goName ++ "(ctx workflow.Context, input *"
      ++ m.input.text ++ ", options workflow.NexusOperationOptions) (*" ++ m.output.text
      ++ ", error) \x7b")
    ["\toutput := &" ++ m.output.text ++ "\x7b\x7d",
      "\tif err := c.Start" ++ m.goName
        ++ "(ctx, input, options).Get(ctx, output); err != nil \x7b",
      "\t\treturn nil, err",
      "\t\x7d",
      "\treturn output, nil"]

def handlerMethod (m : MethodEntry) : List String :=
  ["\t// " ++ m.goName ++ " returns the " ++ m.name ++ " operation registered under name.",
    "\t" ++ m.goName ++ "(name string) nexus.Operation[*" ++ m.input.text ++ ", *"
      ++ m.output.text ++ "]"]

def handlerBlock (e : ServiceEntry) : Block :=
  .braced ("type " ++ e.handler ++ " interface \x7b")
    ([""].intercalate (e.methods.map handlerMethod))

/-- The call that registers the methods, each under its constant. -/
def registrations (e : ServiceEntry) : List String :=
  if e.methods.isEmpty then []
  else
    "\tif err := service.Register("
      :: e.methods.map (fun m => "\t\thandler." ++ m.goName ++ "(" ++ e.constantOf m ++ "),")
      ++ ["\t); err != nil \x7b", "\t\treturn err", "\t\x7d"]

def registerBlock (e : ServiceEntry) : Block :=
  .braced
    ("func " ++ e.register ++ "(registry worker.NexusServiceRegistry, handler " ++ e.handler
      ++ ") error \x7b")
    (("\tservice := nexus.NewService(" ++ e.constant ++ ")") :: e.registrations
      ++ ["\tregistry.RegisterNexusService(service)", "\treturn nil"])

/-- Everything that is declared for a service. -/
def blocks (e : ServiceEntry) : List Block :=
  constantBlock e.constant e.runtimeName
    :: e.methods.map (fun m => constantBlock (e.constantOf m) m.runtimeName)
    ++ [e.clientBlock, e.constructorBlock]
    ++ e.methods.flatMap (fun m => [e.startBlock m, e.executeBlock m])
    ++ [e.handlerBlock, e.registerBlock]

/-! ### Blocks can be read -/

theorem readable_constantBlock (name value : String) : (constantBlock name value).Readable := by
  simp [constantBlock, Block.Readable, Block.isConstant, Text.dropStart?, List.isPrefixOf?]

theorem readable_client (e : ServiceEntry) :
    e.clientBlock.Readable ∧ e.constructorBlock.Readable := by
  constructor
  · refine Block.readable_braced ?_ (by decide)
    simp (disch := decide) only [String.append_assoc, Block.isOpening_append]
  · refine Block.readable_braced ?_ ?_
    · simp (disch := decide) only [String.append_assoc, Block.isOpening_append]
    · simp (disch := decide) [String.append_assoc, Block.isIndented_append]

theorem readable_methods (e : ServiceEntry) (m : MethodEntry) :
    (e.startBlock m).Readable ∧ (e.executeBlock m).Readable := by
  -- the equations that `unfold` and `simp` make for texts of this length are expensive
  delta startBlock executeBlock
  constructor
  · refine Block.readable_braced ?_ ?_
    · simp (disch := decide) only [String.append_assoc, Block.isOpening_append]
    · simp (disch := decide) [String.append_assoc, Block.isIndented_append]
  · refine Block.readable_braced ?_ ?_
    · simp (disch := decide) only [String.append_assoc, Block.isOpening_append]
    · simp (disch := decide) [String.append_assoc, Block.isIndented_append]
      decide

theorem readable_handlerBlock (e : ServiceEntry) : e.handlerBlock.Readable := by
  refine Block.readable_braced ?_ ?_
  · simp (disch := decide) only [String.append_assoc, Block.isOpening_append]
  · rw [← Document.spaced_eq_intercalate]
    refine Document.forall_mem_spaced (.inl rfl) fun block hblock => ?_
    obtain ⟨m, -, rfl⟩ := List.mem_map.mp hblock
    simp (disch := decide) [handlerMethod, String.append_assoc, Block.isIndented_append]

theorem readable_registerBlock (e : ServiceEntry) : e.registerBlock.Readable := by
  have hcall : ∀ line ∈ e.registrations, line = "" ∨ Block.isIndented line := by
    unfold registrations
    split
    case isTrue => exact List.forall_mem_nil _
    case isFalse =>
      rw [List.forall_mem_append, List.forall_mem_cons, List.forall_mem_map]
      refine ⟨⟨by decide, fun m _ => .inr ?_⟩, by decide⟩
      simp (disch := decide) only [String.append_assoc, Block.isIndented_append]
  delta registerBlock
  refine Block.readable_braced ?_ ?_
  · simp (disch := decide) only [String.append_assoc, Block.isOpening_append]
  · rw [List.forall_mem_append, List.forall_mem_cons]
    refine ⟨⟨.inr ?_, hcall⟩, by decide⟩
    simp (disch := decide) only [String.append_assoc, Block.isIndented_append]

/-- Whatever the names and types are, the reader can tell the blocks of a service apart. -/
theorem readable_blocks (e : ServiceEntry) : ∀ b ∈ e.blocks, b.Readable := by
  simp only [blocks, List.forall_mem_append, List.forall_mem_cons, List.forall_mem_map,
    List.forall_mem_flatMap, readable_constantBlock, readable_client, readable_methods,
    readable_handlerBlock, readable_registerBlock, List.not_mem_nil, false_imp_iff, implies_true,
    and_self]

end ServiceEntry

/-- The method as a file presents it that writes types as `typeOf` says. -/
def Operation.entry (s : Service) (settings : Settings) (typeOf : String → Go.TypeExpr)
    (op : Operation) : MethodEntry where
  name := op.methodName
  goName := Go.camelCase op.methodName
  runtimeName := op.chosenName.getD (settings.template.render (s.templateContext op))
  input := typeOf op.inputType
  output := typeOf op.outputType

def Service.entry (s : Service) (settings : Settings) (typeOf : String → Go.TypeExpr) :
    ServiceEntry where
  goName := Go.camelCase s.name
  runtimeName := s.chosenName.getD s.fullName
  methods := s.operations.map (·.entry s settings typeOf)

/-! ### Blocks of a service -/

namespace Document

open Block (Presents)

/-- The framework under its usual aliases. -/
def usual : Framework := ⟨"nexus", "worker", "workflow"⟩

section

variable (s : Service) (settings : Settings) (typeOf : String → Go.TypeExpr)

/-- The service as the renderers get it. -/
def bound : BoundService := (s.named settings).bind typeOf

/-- An operation of the service as the renderers get it. -/
def boundOperation (op : Operation) : BoundOperation :=
  NamedOperation.bind typeOf ⟨op, s.namesOf settings op⟩

@[simp] theorem operations_bound :
    (bound s settings typeOf).operations = s.operations.map (boundOperation s settings typeOf) :=
  List.map_map

@[simp] theorem methods_entry :
    (s.entry settings typeOf).methods = s.operations.map (·.entry s settings typeOf) := rfl

@[simp] theorem names_bound :
    (bound s settings typeOf).names =
      ⟨(s.entry settings typeOf).goName, (s.entry settings typeOf).constant,
        (s.entry settings typeOf).client, (s.entry settings typeOf).constructor,
        (s.entry settings typeOf).handler, (s.entry settings typeOf).register⟩ := rfl

@[simp] theorem runtimeName_bound :
    (bound s settings typeOf).service.runtimeName = (s.entry settings typeOf).runtimeName := rfl

@[simp] theorem names_boundOperation (op : Operation) :
    (boundOperation s settings typeOf op).names =
      ⟨(op.entry s settings typeOf).goName, "Execute" ++ (op.entry s settings typeOf).goName,
        "Start" ++ (op.entry s settings typeOf).goName,
        (s.entry settings typeOf).constantOf (op.entry s settings typeOf),
        (op.entry s settings typeOf).runtimeName⟩ := rfl

@[simp] theorem methodName_boundOperation (op : Operation) :
    (boundOperation s settings typeOf op).methodName = (op.entry s settings typeOf).name := rfl

@[simp] theorem input_boundOperation (op : Operation) :
    (boundOperation s settings typeOf op).input = (op.entry s settings typeOf).input := rfl

@[simp] theorem output_boundOperation (op : Operation) :
    (boundOperation s settings typeOf op).output = (op.entry s settings typeOf).output := rfl

theorem presents_serviceConstant :
    Presents (serviceConstant (bound s settings typeOf))
      [ServiceEntry.constantBlock (s.entry settings typeOf).constant
        (s.entry settings typeOf).runtimeName] := by
  refine .single (b := ServiceEntry.constantBlock _ _) ?_
  simp [String.append_assoc]

theorem presents_operationConstant (op : Operation) :
    Presents (operationConstant (bound s settings typeOf) (boundOperation s settings typeOf op))
      [ServiceEntry.constantBlock
        ((s.entry settings typeOf).constantOf (op.entry s settings typeOf))
        (op.entry s settings typeOf).runtimeName] := by
  refine .single (b := ServiceEntry.constantBlock _ _) ?_
  simp [String.append_assoc]

theorem presents_clientType :
    Presents (clientType usual (bound s settings typeOf))
      [(s.entry settings typeOf).clientBlock, (s.entry settings typeOf).constructorBlock] := by
  have hlines : clientType usual (bound s settings typeOf) =
      ("" :: ("// " ++ (s.entry settings typeOf).client ++ " invokes "
          ++ (bound s settings typeOf).service.fullName ++ " operations from workflow code.")
        :: (s.entry settings typeOf).clientBlock.lines)
      ++ ("" :: ("// " ++ (s.entry settings typeOf).constructor ++ " creates a "
          ++ (s.entry settings typeOf).client ++ " that calls the given Nexus endpoint.")
        :: (s.entry settings typeOf).constructorBlock.lines) := by
    simp only [clientType, usual, ServiceEntry.clientBlock, ServiceEntry.constructorBlock,
      Block.lines, List.cons_append, List.nil_append, List.cons.injEq, true_and, and_true]
    and_intros
    all_goals
      rw [← String.toList_inj]
      simp
  rw [hlines]
  refine Presents.append (.single ?_) (.single ?_)
  · simp [String.append_assoc]
  · simp [String.append_assoc]

theorem presents_startMethod (op : Operation) :
    Presents (startMethod usual (bound s settings typeOf) (boundOperation s settings typeOf op))
      [(s.entry settings typeOf).startBlock (op.entry s settings typeOf)] := by
  have hlines : startMethod usual (bound s settings typeOf)
        (boundOperation s settings typeOf op) =
      "" :: ("// " ++ (boundOperation s settings typeOf op).names.start ++ " starts the "
        ++ (op.entry s settings typeOf).name
        ++ " operation and returns a future for its result.")
        :: ((s.entry settings typeOf).startBlock (op.entry s settings typeOf)).lines := by
    delta startMethod ServiceEntry.startBlock
    simp only [Block.lines, List.cons_append, List.nil_append, List.cons.injEq, true_and, and_true]
    and_intros
    all_goals
      rw [← String.toList_inj]
      simp [parameters, usual]
  rw [hlines]
  refine .single ?_
  simp [String.append_assoc]

theorem presents_executeMethod (op : Operation) :
    Presents (executeMethod usual (bound s settings typeOf) (boundOperation s settings typeOf op))
      [(s.entry settings typeOf).executeBlock (op.entry s settings typeOf)] := by
  have hlines : executeMethod usual (bound s settings typeOf)
        (boundOperation s settings typeOf op) =
      "" :: ("// " ++ (boundOperation s settings typeOf op).names.execute ++ " runs the "
        ++ (op.entry s settings typeOf).name ++ " operation and waits for its result.")
        :: ((s.entry settings typeOf).executeBlock (op.entry s settings typeOf)).lines := by
    delta executeMethod ServiceEntry.executeBlock
    simp only [Block.lines, List.cons_append, List.nil_append, List.cons.injEq, true_and, and_true]
    and_intros
    all_goals
      rw [← String.toList_inj]
      simp [parameters, usual]
  rw [hlines]
  refine .single ?_
  simp [String.append_assoc]

theorem presents_clientLines :
    Presents (clientLines usual (bound s settings typeOf))
      ([(s.entry settings typeOf).clientBlock, (s.entry settings typeOf).constructorBlock]
        ++ (s.entry settings typeOf).methods.flatMap fun m =>
          [(s.entry settings typeOf).startBlock m, (s.entry settings typeOf).executeBlock m]) := by
  rw [clientLines, operations_bound, methods_entry, List.flatMap_map, List.flatMap_map]
  refine (presents_clientType s settings typeOf).append (.flatMap fun op _ => ?_)
  exact (presents_startMethod s settings typeOf op).append
    (presents_executeMethod s settings typeOf op)

theorem presents_handlerLines :
    Presents (handlerLines usual (bound s settings typeOf))
      [(s.entry settings typeOf).handlerBlock] := by
  have hmethod : handlerMethod usual ∘ boundOperation s settings typeOf =
      ServiceEntry.handlerMethod ∘ (·.entry s settings typeOf) := by
    funext op
    rw [Text.list_ext_toList]
    simp [handlerMethod, usual, ServiceEntry.handlerMethod]
  have hlines : handlerLines usual (bound s settings typeOf) =
      "" :: ("// " ++ (s.entry settings typeOf).handler ++ " provides the implementation of each "
        ++ (bound s settings typeOf).service.fullName ++ " operation.")
        :: (s.entry settings typeOf).handlerBlock.lines := by
    rw [handlerLines, operations_bound, List.map_map, hmethod, spaced_eq_intercalate,
      ← List.map_map]
    rfl
  rw [hlines]
  refine .single ?_
  simp [String.append_assoc]

theorem registrationCall_eq :
    registrationCall (bound s settings typeOf) = (s.entry settings typeOf).registrations := by
  have hline : registrationLine ∘ boundOperation s settings typeOf =
      (fun m => "\t\thandler." ++ m.goName ++ "(" ++ (s.entry settings typeOf).constantOf m ++ "),")
        ∘ (·.entry s settings typeOf) := by
    funext op
    simp [registrationLine]
  rw [registrationCall, ServiceEntry.registrations, operations_bound, methods_entry,
    List.isEmpty_map, List.isEmpty_map, List.map_map, hline, ← List.map_map]
  rfl

theorem presents_registerLines :
    Presents (registerLines usual (bound s settings typeOf))
      [(s.entry settings typeOf).registerBlock] := by
  have hlines : registerLines usual (bound s settings typeOf) =
      "" :: ("// " ++ (s.entry settings typeOf).register ++ " registers every "
        ++ (bound s settings typeOf).service.fullName ++ " operation of handler with registry.")
        :: (s.entry settings typeOf).registerBlock.lines := by
    rw [registerLines, registrationCall_eq, Text.list_ext_toList]
    simp [usual, ServiceEntry.registerBlock, Block.lines]
  rw [hlines]
  refine .single ?_
  simp [String.append_assoc]

/-- The lines of a service present what is to be found for it. -/
theorem presents_serviceLines :
    Presents (serviceLines usual (bound s settings typeOf)) (s.entry settings typeOf).blocks := by
  have hconstants : Presents
      ((bound s settings typeOf).operations.flatMap (operationConstant (bound s settings typeOf)))
      ((s.entry settings typeOf).methods.map fun m =>
        ServiceEntry.constantBlock ((s.entry settings typeOf).constantOf m) m.runtimeName) := by
    rw [operations_bound, methods_entry, List.flatMap_map, List.map_map, List.map_eq_flatMap]
    exact .flatMap fun op _ => presents_operationConstant s settings typeOf op
  have hblocks := ((((presents_serviceConstant s settings typeOf).append hconstants).append
    (presents_clientLines s settings typeOf)).append
    (presents_handlerLines s settings typeOf)).append (presents_registerLines s settings typeOf)
  simpa only [serviceLines, ServiceEntry.blocks, List.append_assoc, List.cons_append,
    List.nil_append] using hblocks

theorem oneLine_insertions_bound (hname : OneLine s.name) (hfull : OneLine s.fullName)
    (hops : ∀ op ∈ s.operations, OneLine op.methodName ∧ OneLine (typeOf op.inputType).text ∧
      OneLine (typeOf op.outputType).text) :
    ∀ text ∈ (bound s settings typeOf).insertions, OneLine text := by
  have hgo : OneLine (Go.camelCase s.name) := Go.oneLine_camelCase hname
  have hmethods : ∀ op ∈ s.operations, ∀ text ∈ (boundOperation s settings typeOf op).insertions,
      OneLine text := by
    intro op hop
    obtain ⟨hmethod, hinput, houtput⟩ := hops op hop
    have hgoMethod : OneLine (Go.camelCase op.methodName) := Go.oneLine_camelCase hmethod
    simp only [BoundOperation.insertions, boundOperation, NamedOperation.bind, Service.namesOf,
      OperationNames.ofMethod, ServiceNames.ofName, List.forall_mem_cons, List.not_mem_nil,
      false_imp_iff, implies_true, Text.oneLine_append, hmethod, hinput, houtput, hgo, hgoMethod,
      true_and, and_true]
    and_intros <;> exact Text.oneLine_ofList rfl
  rw [BoundService.insertions, List.forall_mem_append]
  refine ⟨?_, ?_⟩
  · simp only [bound, NamedService.bind, Service.named, ServiceNames.ofName, List.forall_mem_cons,
      List.not_mem_nil, false_imp_iff, implies_true, Text.oneLine_append, hfull, hgo, true_and,
      and_true]
    and_intros <;> exact Text.oneLine_ofList rfl
  · rw [operations_bound, List.flatMap_map, List.forall_mem_flatMap]
    exact hmethods

end

end Document

/-! ### Identifiers of a file -/

namespace ServiceEntry

/-- The identifiers of a service itself. -/
def own (e : ServiceEntry) : List String :=
  [e.constant, e.client, e.constructor, e.handler, e.register]

def constants (e : ServiceEntry) : List String := e.methods.map e.constantOf

end ServiceEntry

theorem Descriptor.oneLine_qualify {scope name : String} (hscope : OneLine scope)
    (hname : OneLine name) : OneLine (qualify scope name) := by
  unfold qualify
  split
  case isTrue => exact hname
  case isFalse =>
    exact Text.oneLine_append.mpr
      ⟨Text.oneLine_append.mpr ⟨hscope, Text.oneLine_ofList rfl⟩, hname⟩

namespace Environment

variable {env : Environment} {r : Registry} {targets : List String} {p : Publication}

/-- The services of a file as its output has to present them. -/
def entries (env : Environment) (f : Descriptor.File) (typeOf : String → Go.TypeExpr) :
    List ServiceEntry :=
  f.services.map fun d => (d.toService env.custom f).entry env.settings typeOf

theorem flatMap_entries {α : Type} (g : ServiceEntry → List α) (env : Environment)
    (f : Descriptor.File) (typeOf : String → Go.TypeExpr) :
    (env.entries f typeOf).flatMap g =
      (f.services.map (·.toService env.custom f)).flatMap fun s =>
        g (s.entry env.settings typeOf) := by
  rw [entries, List.flatMap_map, List.flatMap_map]

theorem nodup_own (hp : p ∈ env.published r targets) (h : p.Written env)
    (hservices : (p.draft.source.services.map (·.name)).Nodup) (typeOf : String → Go.TypeExpr) :
    ((env.entries p.draft.source typeOf).flatMap (·.own)).Nodup := by
  have hown : (env.entries p.draft.source typeOf).flatMap (·.own) =
      (p.draft.source.services.flatMap
        (Registry.ownClaims p.draft.package.importPath p.draft.source)).map (·.ident) := by
    rw [flatMap_entries, List.flatMap_map, List.map_flatMap]
    rfl
  have hclaims : p.draft.source.services.flatMap
      (Registry.ownClaims p.draft.package.importPath p.draft.source) ⊆ p.draft.claims := by
    rw [claims_eq h]
    exact (List.Sublist.flatMap_right _ fun s _ => List.sublist_append_left _ _).subset
  rw [hown, nodup_idents_iff hp hclaims]
  exact (Registry.nodup_ownClaims_iff _ _).mpr hservices

/-- The constants of methods are declared once exactly if no two methods have one full name and
    one constant. -/
theorem nodup_own_constants_iff (hp : p ∈ env.published r targets) (h : p.Written env)
    (hservices : (p.draft.source.services.map (·.name)).Nodup) (typeOf : String → Go.TypeExpr) :
    ((env.entries p.draft.source typeOf).flatMap fun e => e.own ++ e.constants).Nodup ↔
      p.draft.source.operationKeys.Nodup := by
  have hidents : ((env.entries p.draft.source typeOf).flatMap fun e => e.own ++ e.constants) =
      p.draft.claims.map (·.ident) := by
    rw [claims_eq h, flatMap_entries, List.flatMap_map, List.map_flatMap]
    refine List.flatMap_congr fun s _ => ?_
    simp only [ServiceEntry.constants, Service.entry, Descriptor.Service.toService,
      Descriptor.Service.operationKeys, List.map_append, List.map_map]
    rfl
  rw [hidents, nodup_idents_iff hp (List.Subset.refl _), nodup_claims_iff h, and_iff_right hservices]

end Environment

/-! ### The text of a published file -/

/-- The names in a file that its output is made of. -/
def Descriptor.File.names (f : Descriptor.File) : List String :=
  f.package :: f.services.flatMap fun s =>
    s.name :: s.methods.flatMap fun m => [m.name, m.inputType, m.outputType]

namespace Environment

/-- The services of a published file as its text has to present them. -/
def Publication.entries (env : Environment) (p : Publication) : List ServiceEntry :=
  env.entries p.draft.source ((p.draft.mapper env).exprFor p.document.imports)

variable {env : Environment} {p : Publication}

namespace Publication.Written

/-- The lines behind the import block are those of the declared services. -/
theorem bodyLines_eq (h : p.Written env) :
    p.document.bodyLines =
      (p.draft.source.services.map (·.toService env.custom p.draft.source)).flatMap fun s =>
        Document.serviceLines Document.usual (Document.bound s env.settings
          ((p.draft.mapper env).exprFor p.document.imports)) := by
  have hservices : p.document.services = p.draft.source.services.map fun d =>
      Document.bound (d.toService env.custom p.draft.source) env.settings
        ((p.draft.mapper env).exprFor p.document.imports) := by
    rw [h.document, h.services, List.map_map]
    rfl
  rw [Document.bodyLines, hservices, h.framework_eq, List.flatMap_map, List.flatMap_map]
  rfl

theorem presents_body (h : p.Written env) :
    Block.Presents p.document.bodyLines ((p.entries env).flatMap (·.blocks)) := by
  rw [h.bodyLines_eq, Publication.entries, flatMap_entries]
  exact .flatMap fun s _ => Document.presents_serviceLines s env.settings _

/-- If the names of the source are on one line each, so are the lines of the text. -/
theorem oneLine_bodyLines (h : p.Written env) (hindex : env.Indexed)
    (hnames : ∀ name ∈ p.draft.source.names, OneLine name) :
    ∀ line ∈ p.document.bodyLines, OneLine line := by
  rw [h.bodyLines_eq, List.forall_mem_flatMap]
  intro s hs
  obtain ⟨d, hd, rfl⟩ := List.mem_map.mp hs
  simp only [Descriptor.File.names, List.forall_mem_cons, List.forall_mem_flatMap] at hnames
  obtain ⟨hpackage, hservices⟩ := hnames
  obtain ⟨hname, hmethods⟩ := hservices d hd
  refine Document.oneLine_serviceLines (by decide)
    (Document.oneLine_insertions_bound _ _ _ hname (Descriptor.oneLine_qualify hpackage hname) ?_)
  intro op hop
  obtain ⟨m, hm, rfl⟩ := List.mem_map.mp hop
  obtain ⟨hmethod, hinput, houtput, -⟩ := hmethods m hm
  exact ⟨hmethod, h.oneLine_exprFor hindex hinput, h.oneLine_exprFor hindex houtput⟩

/-- The text behind the import block is read as what the source declares, in order. -/
theorem read_body (h : p.Written env) (hindex : env.Indexed)
    (hnames : ∀ name ∈ p.draft.source.names, OneLine name) :
    Block.read (Text.unlines p.document.bodyLines) = (p.entries env).flatMap (·.blocks) := by
  have hreadable : ∀ b ∈ (p.entries env).flatMap (·.blocks), b.Readable :=
    List.forall_mem_flatMap.mpr fun e _ => e.readable_blocks
  rw [Block.read, Text.unlines, Text.split_join (h.oneLine_bodyLines hindex hnames),
    h.presents_body.readFrom_append hreadable]
  exact List.append_nil _

end Publication.Written

end Environment

namespace Request

/-- Behind its import block, a returned file declares what its source does, service by service
    and method by method, with the types that mapping has given. Services have different
    identifiers, and so have the methods of a service. The constants of methods differ exactly if no
    two methods have one full name and one constant, so wherever services have no dot in their
    names. -/
theorem blocks_read {request : Request} {response : Response}
    (hresponse : (generate request).outcome = .ok response) :
    (response.files = request.published.map fun p =>
        ⟨some p.draft.name, none, some p.document.render⟩) ∧
      ∀ p ∈ request.published, (∀ name ∈ p.draft.source.names, OneLine name) →
        (p.draft.source.services.map (·.name)).Nodup →
        ∃ env body mapped, request.environment? = .ok env ∧
          p.draft.source.name ∈ request.targets ∧
          env.files.find? (·.name == p.draft.source.name) = some p.draft.source ∧
          ((p.draft.mapper env).mapAll Go.Imports.framework p.draft.source.typeCalls).outcome =
            .ok (mapped, p.document.imports) ∧
          mapped.map (·.expr) = p.draft.source.typeCalls.map (fun call =>
            (p.draft.mapper env).exprFor p.document.imports call.1) ∧
          p.document.render = Text.unlines p.document.headerLines ++ body ∧
          Block.read body = (p.entries env).flatMap (·.blocks) ∧
          ((p.entries env).flatMap (·.own)).Nodup ∧
          (∀ e ∈ p.entries env, (e.methods.map (·.goName)).Nodup) ∧
          (((p.entries env).flatMap fun e => e.own ++ e.constants).Nodup ↔
            p.draft.source.operationKeys.Nodup) ∧
          ((∀ s ∈ p.draft.source.services, '.' ∉ s.name.toList) →
            ((p.entries env).flatMap fun e => e.own ++ e.constants).Nodup) := by
  refine ⟨files_eq_published hresponse, fun p hp hnames hservices => ?_⟩
  obtain ⟨env, henv, hindex, hpublished, htarget, hwritten⟩ := written_of_mem_published hp
  obtain ⟨mapped, hmapped, -, -⟩ := hwritten.mapped
  have hiff := Environment.nodup_own_constants_iff hpublished hwritten hservices
    ((p.draft.mapper env).exprFor p.document.imports)
  refine ⟨env, Text.unlines p.document.bodyLines, mapped, henv, htarget, hwritten.source, hmapped,
    TypeMapper.exprs_of_mapAll hmapped, p.document.render_eq, hwritten.read_body hindex hnames,
    Environment.nodup_own hpublished hwritten hservices _, ?_, hiff, ?_⟩
  · intro e he
    obtain ⟨d, hd, rfl⟩ := List.mem_map.mp he
    have hgo := hwritten.methods d hd
    simp only [Service.entry, Descriptor.Service.toService, List.map_map]
    exact hgo
  · intro hdots
    exact hiff.mpr (Descriptor.File.nodup_operationKeys hservices hwritten.nodup_methods hdots)

/-- The first file of the shop, with its one service. -/
theorem blocks_read_shop :
    ∃ p ∈ shop.published, (∀ name ∈ p.draft.source.names, OneLine name) ∧
      (p.draft.source.services.map (·.name)).Nodup ∧
      ∃ env body, p.document.render = Text.unlines p.document.headerLines ++ body ∧
        Block.read body = (p.entries env).flatMap (·.blocks) ∧
        ((p.entries env).flatMap fun e => e.own ++ e.constants).Nodup := by
  have hany : shop.published.any fun p => decide ((∀ name ∈ p.draft.source.names, OneLine name) ∧
      (p.draft.source.services.map (·.name)).Nodup ∧
      ∀ s ∈ p.draft.source.services, '.' ∉ s.name.toList) := by
    decide +kernel
  obtain ⟨p, hp, hsource⟩ := List.any_eq_true.mp hany
  obtain ⟨hnames, hservices, hdots⟩ := of_decide_eq_true hsource
  have houtcome := generate_outcome_of_isOk (by decide +kernel : shop.environment?.isOk)
  obtain ⟨env, body, mapped, -, -, -, -, -, hrender, hread, -, -, -, hnodup⟩ :=
    (blocks_read houtcome).2 p hp hnames hservices
  exact ⟨p, hp, hnames, hservices, env, body, hrender, hread, hnodup hdots⟩

/-- Services whose names end and begin around the same dot: a method of one has the full name of a
    method of the other. Both constants are declared, under one identifier and with two values. -/
theorem dottedShops_two_constants :
    ∃ response, (generate dottedShops).outcome = .ok response ∧ response.error = none ∧
      dottedShops.published.length = 1 ∧
      ∀ p ∈ dottedShops.published,
        response.files = [⟨some p.draft.name, none, some p.document.render⟩] ∧
        (∀ name ∈ p.draft.source.names, OneLine name) ∧
        (p.draft.source.services.map (·.name)).Nodup ∧
        ∃ body, p.document.render = Text.unlines p.document.headerLines ++ body ∧
          ServiceEntry.constantBlock "ABCOperationName" "b.c" ∈ Block.read body ∧
          ServiceEntry.constantBlock "ABCOperationName" "c" ∈ Block.read body := by
  have hok : dottedShops.environment?.isOk := by decide +kernel
  have houtcome := generate_outcome_of_isOk hok
  have hlength : dottedShops.published.length = 1 := by decide +kernel
  refine ⟨_, houtcome, by decide +kernel, hlength, fun p hp => ?_⟩
  have hfiles := files_eq_published houtcome
  obtain ⟨q, hq⟩ := List.length_eq_one_iff.mp hlength
  obtain rfl := List.mem_singleton.mp (hq ▸ hp)
  have hsource : ∀ p ∈ dottedShops.published, (∀ name ∈ p.draft.source.names, OneLine name) ∧
      (p.draft.source.services.map (·.name)).Nodup := by
    decide +kernel
  have hconstants : dottedShops.environment?.toOption.all fun env =>
      dottedShops.published.all fun p =>
        decide (ServiceEntry.constantBlock "ABCOperationName" "b.c" ∈
            (p.entries env).flatMap (·.blocks)) &&
          decide (ServiceEntry.constantBlock "ABCOperationName" "c" ∈
            (p.entries env).flatMap (·.blocks)) := by
    decide +kernel
  obtain ⟨hnames, hservices⟩ := hsource p hp
  obtain ⟨env, henv, hindex, -, -, hwritten⟩ := written_of_mem_published hp
  rw [henv] at hconstants
  have hread := List.all_eq_true.mp hconstants p hp
  rw [Bool.and_eq_true, decide_eq_true_eq, decide_eq_true_eq,
    ← hwritten.read_body hindex hnames] at hread
  refine ⟨?_, hnames, hservices, _, p.document.render_eq, hread.1, hread.2⟩
  rw [hfiles, hq]
  rfl

end Request

end GoBindings
