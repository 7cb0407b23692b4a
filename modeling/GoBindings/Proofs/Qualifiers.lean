/-
  GoBindings/Proofs/Qualifiers.lean
  =================================
  **The packages that a line of Go names.**

  A name in front of a dot, but not behind one, names a package, unless it is the name of a
  parameter or variable (`qualifiers`). Lines are read character by character, so what a line
  says is found part by part: a text that begins or ends with a character that is neither part
  of a name nor a dot can be read on its own (`qualified_append_gap`, `qualified_append_type`),
  and what comes from the source has no dots at all (`Dotless`).

  For the blocks of a service this gives both directions. No line names a package that the
  service does not need (`ServiceEntry.covers_blocks`), and each one that it needs is named
  (`ServiceEntry.exists_line_of_mem_packages`).
-/
import GoBindings.Proofs.Blocks

namespace GoBindings

open Go (IsName isNameChar reservedLocals)

/-! ### Reading qualifiers -/

/-- A character that names are made of. -/
def isWordChar (c : Char) : Bool :=
  c.isAlphanum || c == '_' || (0x80 ≤ c.toNat && Go.isAlphanumeric c)

/-- Below 128 the letters and numbers are those of ASCII. -/
theorem isAlphanum_of_ascii {c : Char} (h : Go.isAlphanumeric c) (hascii : c.toNat < 0x80) :
    c.isAlphanum := by
  have hletters : Unicode.alphabeticRanges.all
      fun r => 0x80 ≤ r.1 || r == (65, 90) || r == (97, 122) := by decide +kernel
  have hdigits : Unicode.numericRanges.all fun r => 0x80 ≤ r.1 || r == (48, 57) := by
    decide +kernel
  rw [List.all_eq_true] at hletters hdigits
  rcases (Bool.or_eq_true _ _).mp h with halphabetic | hnumeric
  · obtain ⟨r, hr, hlow, hhigh⟩ := Unicode.Ranges.contains_iff.mp halphabetic
    have hrange := hletters r hr
    simp only [Bool.or_eq_true, decide_eq_true_eq, beq_iff_eq] at hrange
    obtain (hlarge | rfl) | rfl := hrange
    · omega
    · exact Go.isAlphanum_iff.mpr (.inl ⟨hlow, hhigh⟩)
    · exact Go.isAlphanum_iff.mpr (.inr (.inl ⟨hlow, hhigh⟩))
  · obtain ⟨r, hr, hlow, hhigh⟩ := Unicode.Ranges.contains_iff.mp hnumeric
    have hrange := hdigits r hr
    simp only [Bool.or_eq_true, decide_eq_true_eq, beq_iff_eq] at hrange
    obtain hlarge | rfl := hrange
    · omega
    · exact Go.isAlphanum_iff.mpr (.inr (.inr ⟨hlow, hhigh⟩))

theorem isWordChar_of_isNameChar {c : Char} (h : isNameChar c) : isWordChar c := by
  rcases (Bool.or_eq_true _ _).mp h with halphanumeric | hunderscore
  · by_cases hascii : c.toNat < 0x80
    · simp only [isWordChar, isAlphanum_of_ascii halphanumeric hascii, Bool.true_or]
    · simp only [isWordChar, halphanumeric, Nat.not_lt.mp hascii, decide_true, Bool.and_self,
        Bool.or_true]
  · simp only [isWordChar, hunderscore, Bool.or_true, Bool.true_or]

/-- The names in front of dots, given the name that is being read and whether it stands behind
    a dot itself. -/
def qualifiersFrom (selected : Bool) (word : List Char) : List Char → List String
  | [] => []
  | c :: cs =>
    if isWordChar c then qualifiersFrom selected (word ++ [c]) cs
    else if c = '.' then
      (if selected || word.isEmpty then [] else [String.ofList word]) ++ qualifiersFrom true [] cs
    else qualifiersFrom false [] cs

/-- The names that stand in front of a dot, but not behind one. -/
def qualified (s : String) : List String := qualifiersFrom false [] s.toList

/-- The line is a constant or a comment. -/
def isQuiet (line : String) : Bool :=
  Block.isConstant line || Block.isComment (String.ofList (line.toList.dropWhile (· == '\t')))

/-- The package qualifiers in a line of Go. Comments and constants have none, and the names of
    parameters and variables are not those of packages. -/
def qualifiers (line : String) : List String :=
  if isQuiet line then [] else (qualified line).filter (!reservedLocals.contains ·)

/-- The package qualifiers in a text of Go. -/
def qualifiersIn (text : String) : List String := (Text.split '\n' text).flatMap qualifiers

theorem qualifiersIn_unlines (ls : List String) :
    qualifiersIn (Text.unlines ls) = ls.flatMap qualifiersIn := by
  have hempty : qualifiers "" = [] := by decide
  rw [qualifiersIn, Text.split_unlines, List.flatMap_append, List.flatMap_singleton, hempty,
    List.append_nil, List.flatMap_assoc]
  rfl

theorem qualifiersIn_of_oneLine {line : String} (h : Text.OneLine line) :
    qualifiersIn line = qualifiers line := by
  rw [qualifiersIn, Text.split_of_oneLine h, List.flatMap_singleton]

theorem qualifiers_of_isQuiet {line : String} (h : isQuiet line) : qualifiers line = [] :=
  if_pos h

theorem mem_qualifiers_iff {line used : String} : used ∈ qualifiers line ↔
    isQuiet line = false ∧ used ∈ qualified line ∧ used ∉ reservedLocals := by
  unfold qualifiers
  cases isQuiet line with
  | true => simp
  | false => simp

/-- The character ends a name and does not select from one. -/
def isGap (c : Char) : Bool := !isWordChar c && c != '.'

theorem qualifiersFrom_gap {c : Char} (h : isGap c) (selected : Bool) (word cs : List Char) :
    qualifiersFrom selected word (c :: cs) = qualifiersFrom false [] cs := by
  simp only [isGap, Bool.and_eq_true, Bool.not_eq_true', bne_iff_ne, ne_eq] at h
  rw [qualifiersFrom, h.1, if_neg (by decide), if_neg h.2]

/-- What follows a gap is read from the beginning. -/
theorem qualifiersFrom_append_gap {c : Char} (h : isGap c) (selected : Bool)
    (word cs ds : List Char) :
    qualifiersFrom selected word (cs ++ c :: ds) =
      qualifiersFrom selected word cs ++ qualifiersFrom false [] ds := by
  -- the state of reading changes from character to character, so it stays general
  induction cs generalizing selected word with
  | nil => exact qualifiersFrom_gap h selected word ds
  | cons d cs ih =>
    rw [List.cons_append, qualifiersFrom, qualifiersFrom]
    split
    case isTrue => exact ih selected _
    case isFalse =>
      split
      case isTrue => rw [ih, List.append_assoc]
      case isFalse => exact ih false []

theorem qualifiersFrom_of_not_mem {cs : List Char} (h : '.' ∉ cs) (selected : Bool)
    (word : List Char) : qualifiersFrom selected word cs = [] := by
  induction cs generalizing selected word with
  | nil => rfl
  | cons c cs ih =>
    rw [List.mem_cons, not_or] at h
    rw [qualifiersFrom, if_neg (Ne.symm h.1)]
    split
    case isTrue => exact ih h.2 selected _
    case isFalse => exact ih h.2 false []

/-- Text without dots adds no qualifiers at the end. -/
theorem qualifiersFrom_append_of_not_mem {ds : List Char} (h : '.' ∉ ds) (selected : Bool)
    (word cs : List Char) :
    qualifiersFrom selected word (cs ++ ds) = qualifiersFrom selected word cs := by
  induction cs generalizing selected word with
  | nil => exact qualifiersFrom_of_not_mem h selected word
  | cons c cs ih =>
    rw [List.cons_append, qualifiersFrom, qualifiersFrom]
    split
    case isTrue => exact ih selected _
    case isFalse =>
      split
      case isTrue => rw [ih]
      case isFalse => exact ih false []

theorem qualifiersFrom_name {name : List Char} (hname : ∀ c ∈ name, isWordChar c)
    (selected : Bool) (word cs : List Char) :
    qualifiersFrom selected word (name ++ cs) = qualifiersFrom selected (word ++ name) cs := by
  induction name generalizing word with
  | nil => rw [List.nil_append, List.append_nil]
  | cons c name ih =>
    rw [List.forall_mem_cons] at hname
    rw [List.cons_append, qualifiersFrom, if_pos hname.1, ih hname.2, List.append_assoc,
      List.singleton_append]

/-! ### Texts -/

def Dotless (s : String) : Prop := '.' ∉ s.toList

instance (s : String) : Decidable (Dotless s) := inferInstanceAs (Decidable (_ ∉ _))

@[simp] theorem dotless_append {a b : String} : Dotless (a ++ b) ↔ Dotless a ∧ Dotless b := by
  simp only [Dotless, String.toList_append, List.mem_append, not_or]

/-- The text begins with a gap. -/
def startsWithGap (s : String) : Bool := s.toList.head?.any isGap

/-- The text ends with a gap. -/
def endsWithGap (s : String) : Bool := s.toList.getLast?.any isGap

theorem endsWithGap_append {a b : String} (h : endsWithGap b) : endsWithGap (a ++ b) := by
  unfold endsWithGap at h ⊢
  rw [String.toList_append, List.getLast?_append]
  cases hb : b.toList.getLast? with
  | none => rw [hb] at h; exact nomatch h
  | some c => rwa [hb] at h

/-- A text that begins with a gap adds its own qualifiers. -/
theorem qualified_append_gap {a b : String} (used : List String)
    (h : startsWithGap b ∧ qualified b = used) : qualified (a ++ b) = qualified a ++ used := by
  obtain ⟨hgap, rfl⟩ := h
  unfold qualified
  unfold startsWithGap at hgap
  rw [String.toList_append]
  cases hb : b.toList with
  | nil => rw [hb] at hgap; exact nomatch hgap
  | cons c cs =>
    rw [hb, List.head?_cons, Option.any_some] at hgap
    rw [qualifiersFrom_append_gap hgap, qualifiersFrom_gap hgap]

theorem qualified_of_dotless {s : String} (h : Dotless s) : qualified s = [] :=
  qualifiersFrom_of_not_mem h _ _

theorem qualified_append_of_dotless {a b : String} (h : Dotless b) :
    qualified (a ++ b) = qualified a := by
  unfold qualified
  rw [String.toList_append]
  exact qualifiersFrom_append_of_not_mem h _ _ _

/-- The type is written with names only. -/
structure Go.TypeExpr.Plain (t : Go.TypeExpr) : Prop where
  qualifier : ∀ used, t.qualifier = some used → IsName used
  ident : Dotless t.ident

theorem qualifiersFrom_qualified {used : String} (h : IsName used) {cs : List Char}
    (hcs : '.' ∉ cs) : qualifiersFrom false [] (used.toList ++ '.' :: cs) = [used] := by
  have hne : used.toList.isEmpty = false := by
    rw [List.isEmpty_eq_false_iff, Ne, String.toList_eq_nil_iff]
    exact h.ne_empty
  have hchars : ∀ c ∈ used.toList, isWordChar c := fun c hc =>
    isWordChar_of_isNameChar (h.chars c hc)
  rw [qualifiersFrom_name hchars, List.nil_append, qualifiersFrom, if_neg (by decide), if_pos rfl,
    hne, qualifiersFrom_of_not_mem hcs, String.ofList_toList]
  rfl

theorem qualified_append_type {a : String} {t : Go.TypeExpr} (ha : endsWithGap a) (ht : t.Plain) :
    qualified (a ++ t.text) = qualified a ++ t.qualifier.toList := by
  obtain ⟨qualifier, ident⟩ := t
  obtain ⟨hqualifier, hident⟩ := ht
  cases qualifier with
  | none =>
    rw [Go.TypeExpr.text, qualified_append_of_dotless hident]
    exact (List.append_nil _).symm
  | some used =>
    obtain ⟨c, hlast, hgap⟩ := (Option.any_eq_true _ _).mp ha
    obtain ⟨front, hfront⟩ := List.getLast?_eq_some_iff.mp hlast
    have hdot : ".".toList = ['.'] := rfl
    unfold qualified
    rw [Go.TypeExpr.text, String.toList_append, String.toList_append, String.toList_append, hdot,
      hfront, List.append_assoc, List.append_assoc, List.singleton_append, List.singleton_append,
      qualifiersFrom_append_gap hgap, qualifiersFrom_append_gap hgap,
      qualifiersFrom_qualified (hqualifier used rfl) hident]
    exact (congrArg (· ++ [used]) (List.append_nil _)).symm

/-! ### Qualifiers of a service -/

namespace ServiceEntry

/-- Names and types are written with names only. -/
structure Plain (e : ServiceEntry) : Prop where
  goName : Dotless e.goName
  methods : ∀ m ∈ e.methods, Dotless m.goName ∧ m.input.Plain ∧ m.output.Plain

/-- The types that the methods take and give. -/
def types (e : ServiceEntry) : List Go.TypeExpr := e.methods.flatMap fun m => [m.input, m.output]

/-- The packages that the text of a service needs. -/
def packages (e : ServiceEntry) : List String :=
  ["nexus", "worker", "workflow"] ++ e.types.filterMap (·.qualifier)

variable {e : ServiceEntry} {m : MethodEntry}

theorem Plain.own (h : e.Plain) : ∀ ident ∈ e.own, Dotless ident := by
  simp only [ServiceEntry.own, ServiceEntry.constant, ServiceEntry.client,
    ServiceEntry.constructor, ServiceEntry.handler, ServiceEntry.register, List.forall_mem_cons,
    dotless_append, h.goName, true_and, and_true]
  decide

theorem Plain.names (h : e.Plain) : Dotless e.constant ∧ Dotless e.client ∧
    Dotless e.constructor ∧ Dotless e.handler ∧ Dotless e.register := by
  have hown := h.own
  simpa only [ServiceEntry.own, List.forall_mem_cons, List.not_mem_nil, false_imp_iff,
    implies_true, and_true] using hown

theorem Plain.constantOf (h : e.Plain) (hm : m ∈ e.methods) : Dotless (e.constantOf m) := by
  simp only [ServiceEntry.constantOf, dotless_append, h.goName, (h.methods m hm).1, true_and]
  decide

theorem qualified_startHead (h : e.Plain) (hm : m ∈ e.methods) :
    qualified ("func (c *" ++ e.client ++ ") Start" ++ m.goName ++ "(ctx workflow.Context, input *"
      ++ m.input.text
      ++ ", options workflow.NexusOperationOptions) workflow.NexusOperationFuture \x7b") =
      ["workflow"] ++ m.input.qualifier.toList ++ ["workflow", "workflow"] := by
  obtain ⟨hgo, hinput, -⟩ := h.methods m hm
  obtain ⟨-, hclient, -, -, -⟩ := h.names
  rw [qualified_append_gap ["workflow", "workflow"] (by decide),
    qualified_append_type (endsWithGap_append (by decide)) hinput,
    qualified_append_gap ["workflow"] (by decide), qualified_append_of_dotless hgo,
    qualified_append_gap [] (by decide), qualified_append_of_dotless hclient,
    qualified_of_dotless (by decide)]
  rfl

theorem qualified_executeHead (h : e.Plain) (hm : m ∈ e.methods) :
    qualified ("func (c *" ++ e.client ++ ") Execute" ++ m.goName
      ++ "(ctx workflow.Context, input *" ++ m.input.text
      ++ ", options workflow.NexusOperationOptions) (*" ++ m.output.text ++ ", error) \x7b") =
      ["workflow"] ++ m.input.qualifier.toList ++ ["workflow"] ++ m.output.qualifier.toList := by
  obtain ⟨hgo, hinput, houtput⟩ := h.methods m hm
  obtain ⟨-, hclient, -, -, -⟩ := h.names
  rw [qualified_append_gap [] (by decide),
    qualified_append_type (endsWithGap_append (by decide)) houtput,
    qualified_append_gap ["workflow"] (by decide),
    qualified_append_type (endsWithGap_append (by decide)) hinput,
    qualified_append_gap ["workflow"] (by decide), qualified_append_of_dotless hgo,
    qualified_append_gap [] (by decide), qualified_append_of_dotless hclient,
    qualified_of_dotless (by decide), List.append_nil]
  rfl

theorem qualified_executeBody (h : e.Plain) (hm : m ∈ e.methods) :
    qualified ("\toutput := &" ++ m.output.text ++ "\x7b\x7d") = m.output.qualifier.toList ∧
      qualified ("\tif err := c.Start" ++ m.goName
        ++ "(ctx, input, options).Get(ctx, output); err != nil \x7b") = ["c"] := by
  obtain ⟨hgo, -, houtput⟩ := h.methods m hm
  constructor
  · rw [qualified_append_gap [] (by decide), qualified_append_type (by decide) houtput,
      qualified_of_dotless (by decide), List.append_nil, List.nil_append]
  · rw [qualified_append_gap [] (by decide), qualified_append_of_dotless hgo]
    decide

theorem qualified_startBody (h : e.Plain) (hm : m ∈ e.methods) :
    qualified ("\treturn c.client.ExecuteOperation(ctx, " ++ e.constantOf m
      ++ ", input, options)") = ["c"] := by
  rw [qualified_append_gap [] (by decide),
    qualified_append_of_dotless (h.constantOf hm)]
  decide

theorem qualified_handlerMethod (h : e.Plain) (hm : m ∈ e.methods) :
    qualified ("\t" ++ m.goName ++ "(name string) nexus.Operation[*" ++ m.input.text ++ ", *"
      ++ m.output.text ++ "]") =
      ["nexus"] ++ m.input.qualifier.toList ++ m.output.qualifier.toList := by
  obtain ⟨hgo, hinput, houtput⟩ := h.methods m hm
  rw [qualified_append_gap [] (by decide),
    qualified_append_type (endsWithGap_append (by decide)) houtput,
    qualified_append_gap [] (by decide),
    qualified_append_type (endsWithGap_append (by decide)) hinput,
    qualified_append_gap ["nexus"] (by decide), qualified_append_of_dotless hgo,
    qualified_of_dotless (by decide), List.append_nil, List.append_nil, List.nil_append]

theorem qualified_constructorBody (h : e.Plain) :
    qualified ("\treturn &" ++ e.client ++ "\x7bclient: workflow.NewNexusClient(endpoint, "
      ++ e.constant ++ ")\x7d") = ["workflow"] := by
  obtain ⟨hconstant, hclient, -, hhandler, hregister⟩ := h.names
  rw [qualified_append_gap [] (by decide), qualified_append_of_dotless hconstant,
    qualified_append_gap ["workflow"] (by decide), qualified_append_of_dotless hclient,
    qualified_of_dotless (by decide)]
  rfl

theorem qualified_registerHead (h : e.Plain) :
    qualified ("func " ++ e.register ++ "(registry worker.NexusServiceRegistry, handler "
      ++ e.handler ++ ") error \x7b") = ["worker"] := by
  obtain ⟨hconstant, hclient, -, hhandler, hregister⟩ := h.names
  rw [qualified_append_gap [] (by decide), qualified_append_of_dotless hhandler,
    qualified_append_gap ["worker"] (by decide), qualified_append_of_dotless hregister,
    qualified_of_dotless (by decide)]
  rfl

theorem qualified_newService (h : e.Plain) :
    qualified ("\tservice := nexus.NewService(" ++ e.constant ++ ")") = ["nexus"] := by
  obtain ⟨hconstant, hclient, -, hhandler, hregister⟩ := h.names
  rw [qualified_append_of_dotless (by decide), qualified_append_of_dotless hconstant]
  decide

theorem qualified_registration (h : e.Plain) (hm : m ∈ e.methods) :
    qualified ("\t\thandler." ++ m.goName ++ "(" ++ e.constantOf m ++ "),") = ["handler"] := by
  rw [qualified_append_of_dotless (by decide), qualified_append_of_dotless (h.constantOf hm),
    qualified_append_of_dotless (by decide), qualified_append_of_dotless (h.methods m hm).1]
  decide

/-! ### No other packages -/

/-- The line names no packages but those that the service needs. -/
def Covers (e : ServiceEntry) (line : String) : Prop := ∀ used ∈ qualifiers line, used ∈ e.packages

theorem covers_of_qualified {line : String} {names : List String} (hnames : qualified line = names)
    (h : ∀ used ∈ names, used ∈ reservedLocals ∨ used ∈ e.packages) : e.Covers line := by
  intro used hused
  obtain ⟨-, hmem, hlocal⟩ := mem_qualifiers_iff.mp hused
  exact (h used (hnames ▸ hmem)).resolve_left hlocal

theorem covers_of_dotless {line : String} (h : Dotless line) : e.Covers line :=
  covers_of_qualified (qualified_of_dotless h) fun _ hused => absurd hused List.not_mem_nil

theorem covers_of_isQuiet {line : String} (h : isQuiet line) : e.Covers line := by
  intro used hused
  rw [qualifiers_of_isQuiet h] at hused
  exact absurd hused List.not_mem_nil

theorem mem_packages_of_mem_types {t : Go.TypeExpr} (ht : t ∈ e.types) {used : String}
    (h : used ∈ t.qualifier.toList) : used ∈ e.packages :=
  List.mem_append_right _ (List.mem_filterMap.mpr ⟨t, ht, Option.mem_toList.mp h⟩)

theorem mem_types (hm : m ∈ e.methods) : m.input ∈ e.types ∧ m.output ∈ e.types :=
  ⟨List.mem_flatMap.mpr ⟨m, hm, List.mem_cons_self⟩,
    List.mem_flatMap.mpr ⟨m, hm, List.mem_cons_of_mem _ List.mem_cons_self⟩⟩

theorem covers_client (h : e.Plain) :
    ∀ line ∈ e.clientBlock.lines ++ e.constructorBlock.lines, e.Covers line := by
  obtain ⟨-, hclient, hconstructor, -, -⟩ := h.names
  simp only [clientBlock, constructorBlock, Block.lines, List.cons_append, List.nil_append,
    List.forall_mem_cons]
  refine ⟨covers_of_dotless ?_, covers_of_qualified (by decide : _ = ["workflow"]) ?_,
    covers_of_dotless (by decide), covers_of_dotless ?_,
    covers_of_qualified (qualified_constructorBody h) ?_, covers_of_dotless (by decide),
    List.forall_mem_nil _⟩
  · simp only [dotless_append, hclient, and_true]
    decide
  · simp [packages]
  · simp only [dotless_append, hclient, hconstructor, and_true]
    decide
  · simp [packages]

theorem covers_startBlock (h : e.Plain) (hm : m ∈ e.methods) :
    ∀ line ∈ (e.startBlock m).lines, e.Covers line := by
  obtain ⟨hinput, -⟩ := mem_types hm
  delta startBlock
  simp only [Block.lines, List.cons_append, List.nil_append, List.forall_mem_cons]
  refine ⟨covers_of_qualified (qualified_startHead h hm) ?_,
    covers_of_qualified (qualified_startBody h hm) ?_, covers_of_dotless (by decide),
    List.forall_mem_nil _⟩
  · simp only [List.forall_mem_append]
    refine ⟨⟨?_, fun used hused => .inr (mem_packages_of_mem_types hinput hused)⟩, ?_⟩
    · simp [packages]
    · simp [packages]
  · simp [reservedLocals]

theorem covers_executeBlock (h : e.Plain) (hm : m ∈ e.methods) :
    ∀ line ∈ (e.executeBlock m).lines, e.Covers line := by
  obtain ⟨hresult, hcall⟩ := qualified_executeBody h hm
  obtain ⟨hinput, houtput⟩ := mem_types hm
  delta executeBlock
  simp only [Block.lines, List.cons_append, List.nil_append, List.forall_mem_cons]
  refine ⟨covers_of_qualified (qualified_executeHead h hm) ?_,
    covers_of_qualified hresult fun used hused => .inr (mem_packages_of_mem_types houtput hused),
    covers_of_qualified hcall ?_, covers_of_dotless (by decide), covers_of_dotless (by decide),
    covers_of_dotless (by decide), covers_of_dotless (by decide), List.forall_mem_nil _⟩
  · simp only [List.forall_mem_append]
    refine ⟨⟨⟨?_, fun used hused => .inr (mem_packages_of_mem_types hinput hused)⟩, ?_⟩,
      fun used hused => .inr (mem_packages_of_mem_types houtput hused)⟩
    · simp [packages]
    · simp [packages]
  · simp [reservedLocals]

theorem covers_handlerMethod (h : e.Plain) (hm : m ∈ e.methods) :
    ∀ line ∈ handlerMethod m, e.Covers line := by
  have hcomment : isQuiet ("\t// " ++ m.goName ++ " returns the " ++ m.name
      ++ " operation registered under name.") := by
    simp [isQuiet, Block.isComment, Text.dropStart?, List.isPrefixOf?]
  obtain ⟨hinput, houtput⟩ := mem_types hm
  simp only [handlerMethod, List.forall_mem_cons]
  refine ⟨covers_of_isQuiet hcomment, covers_of_qualified (qualified_handlerMethod h hm) ?_,
    List.forall_mem_nil _⟩
  simp only [List.forall_mem_append]
  refine ⟨⟨?_, fun used hused => .inr (mem_packages_of_mem_types hinput hused)⟩,
    fun used hused => .inr (mem_packages_of_mem_types houtput hused)⟩
  simp [packages]

theorem covers_handlerBlock (h : e.Plain) : ∀ line ∈ e.handlerBlock.lines, e.Covers line := by
  obtain ⟨-, -, -, hhandler, -⟩ := h.names
  have hmethods : ∀ line ∈ [""].intercalate (e.methods.map handlerMethod), e.Covers line := by
    rw [← Document.spaced_eq_intercalate]
    refine Document.forall_mem_spaced (covers_of_dotless (by decide)) fun block hblock => ?_
    obtain ⟨m, hm, rfl⟩ := List.mem_map.mp hblock
    exact covers_handlerMethod h hm
  simp only [handlerBlock, Block.lines, List.forall_mem_append, List.forall_mem_cons]
  refine ⟨⟨covers_of_dotless ?_, hmethods⟩, covers_of_dotless (by decide), List.forall_mem_nil _⟩
  simp only [dotless_append, hhandler, and_true]
  decide

theorem covers_registerBlock (h : e.Plain) : ∀ line ∈ e.registerBlock.lines, e.Covers line := by
  have hcall : ∀ line ∈ e.registrations, e.Covers line := by
    unfold registrations
    split
    case isTrue => exact List.forall_mem_nil _
    case isFalse =>
      simp only [List.forall_mem_append, List.forall_mem_cons, List.forall_mem_map]
      refine ⟨⟨covers_of_qualified (by decide : _ = ["service"]) ?_, fun m hm => ?_⟩,
        covers_of_dotless (by decide), covers_of_dotless (by decide),
        covers_of_dotless (by decide), List.forall_mem_nil _⟩
      · simp [reservedLocals]
      · exact covers_of_qualified (qualified_registration h hm) (by simp [reservedLocals])
  delta registerBlock
  simp only [Block.lines, List.cons_append, List.forall_mem_append, List.forall_mem_cons]
  refine ⟨covers_of_qualified (qualified_registerHead h) ?_,
    covers_of_qualified (qualified_newService h) ?_, ⟨hcall, ?_, covers_of_dotless (by decide),
      List.forall_mem_nil _⟩, covers_of_dotless (by decide), List.forall_mem_nil _⟩
  · simp [packages]
  · simp [packages]
  · exact covers_of_qualified (by decide : _ = ["registry"]) (by simp [reservedLocals])

/-- No line of a service names another package. -/
theorem covers_blocks (h : e.Plain) : ∀ b ∈ e.blocks, ∀ line ∈ b.lines, e.Covers line := by
  have hconstant : ∀ name value, ∀ line ∈ (constantBlock name value).lines, e.Covers line := by
    intro name value line hline
    obtain rfl := List.mem_singleton.mp hline
    refine covers_of_isQuiet ?_
    simp [isQuiet, Block.isConstant, Text.dropStart?, List.isPrefixOf?]
  have hclient := covers_client h
  rw [List.forall_mem_append] at hclient
  simp only [blocks, List.forall_mem_append, List.forall_mem_cons, List.forall_mem_map,
    List.forall_mem_flatMap]
  exact ⟨⟨⟨⟨hconstant _ _, fun m _ => hconstant _ _⟩, hclient.1, hclient.2, List.forall_mem_nil _⟩,
    fun m hm => ⟨covers_startBlock h hm, covers_executeBlock h hm, List.forall_mem_nil _⟩⟩,
    covers_handlerBlock h, covers_registerBlock h, List.forall_mem_nil _⟩

/-! ### All the packages -/

/-- The package of a type is named where a method returns or takes it. -/
theorem exists_line_of_mem_types (h : e.Plain) {t : Go.TypeExpr} (ht : t ∈ e.types)
    {used : String} (hused : t.qualifier = some used) (hlocal : used ∉ reservedLocals) :
    ∃ b ∈ e.blocks, ∃ line ∈ b.lines, used ∈ qualifiers line := by
  obtain ⟨m, hm, hmem⟩ := List.mem_flatMap.mp ht
  have hblock : e.executeBlock m ∈ e.blocks := by
    simp only [blocks, List.mem_append, List.mem_flatMap]
    exact .inl (.inr ⟨m, hm, List.mem_cons_of_mem _ List.mem_cons_self⟩)
  have hhead := qualified_executeHead h hm
  refine ⟨_, hblock, ?_⟩
  delta executeBlock
  refine ⟨_, List.mem_cons_self, mem_qualifiers_iff.mpr ⟨?_, ?_, hlocal⟩⟩
  · simp [isQuiet, Block.isConstant, Block.isComment, Text.dropStart?, List.isPrefixOf?]
  · rw [hhead]
    simp only [List.mem_cons, List.not_mem_nil, or_false] at hmem
    rcases hmem with rfl | rfl
    · simp [hused]
    · simp [hused]

theorem exists_line_of_mem_packages (h : e.Plain) {used : String} (hused : used ∈ e.packages)
    (hlocal : used ∉ reservedLocals) :
    ∃ b ∈ e.blocks, ∃ line ∈ b.lines, used ∈ qualifiers line := by
  rcases List.mem_append.mp hused with hframework | htype
  · have hclient : e.clientBlock ∈ e.blocks := by simp [blocks]
    have hregister : e.registerBlock ∈ e.blocks := by simp [blocks]
    simp only [List.mem_cons, List.not_mem_nil, or_false] at hframework
    rcases hframework with rfl | rfl | rfl
    · refine ⟨_, hregister, "\tservice := nexus.NewService(" ++ e.constant ++ ")", ?_,
        mem_qualifiers_iff.mpr ⟨?_, ?_, hlocal⟩⟩
      · delta registerBlock
        simp [Block.lines]
      · simp [isQuiet, Block.isConstant, Block.isComment, Text.dropStart?, List.isPrefixOf?]
      · rw [qualified_newService h]
        exact List.mem_cons_self
    · refine ⟨_, hregister, ?_⟩
      delta registerBlock
      refine ⟨_, List.mem_cons_self, mem_qualifiers_iff.mpr ⟨?_, ?_, hlocal⟩⟩
      · simp [isQuiet, Block.isConstant, Block.isComment, Text.dropStart?, List.isPrefixOf?]
      · rw [qualified_registerHead h]
        exact List.mem_cons_self
    · exact ⟨_, hclient, "\tclient workflow.NexusClient", by simp [clientBlock, Block.lines],
        by decide⟩
  · obtain ⟨t, ht, hqualifier⟩ := List.mem_filterMap.mp htype
    exact exists_line_of_mem_types h ht hqualifier hlocal

/-- The blocks of a service name the packages that it needs, and no others. -/
theorem exists_qualifiers_blocks_iff (h : e.Plain) (used : String) :
    (∃ b ∈ e.blocks, ∃ line ∈ b.lines, used ∈ qualifiers line) ↔
      used ∈ e.packages ∧ used ∉ reservedLocals := by
  constructor
  · rintro ⟨b, hb, line, hline, hused⟩
    exact ⟨covers_blocks h b hb line hline used hused, (mem_qualifiers_iff.mp hused).2.2⟩
  · rintro ⟨hused, hlocal⟩
    exact exists_line_of_mem_packages h hused hlocal

end ServiceEntry

/-- Only blocks have qualifiers: what stands between them is empty or a comment. -/
theorem Block.Presents.exists_qualifiers_iff {ls : List String} {bs : List Block}
    (h : Presents ls bs) (used : String) :
    (∃ line ∈ ls, used ∈ qualifiers line) ↔ ∃ b ∈ bs, ∃ line ∈ b.lines, used ∈ qualifiers line := by
  induction h with
  | nil => simp
  | @cons comment b ls bs hcomment _ ih =>
    have hempty : qualifiers "" = [] := by decide
    have hquiet : qualifiers comment = [] := by
      obtain ⟨rest, hrest⟩ := Option.isSome_iff_exists.mp hcomment
      refine qualifiers_of_isQuiet ?_
      rw [Text.dropStart?_eq_some_iff.mp hrest]
      simp [isQuiet, Block.isComment, Text.dropStart?, List.isPrefixOf?]
    simp only [List.exists_mem_cons_iff, List.mem_append, or_and_right, exists_or, hempty, hquiet,
      List.not_mem_nil, false_or, ih]

end GoBindings
