/-
  GoBindings/Proofs/Declarations.lean
  ===================================
  **What a generated file declares.**

  A reader of Go finds the package-level declarations of a file line by line, by the
  keywords that lines begin with (`declarations`). In the text of a document that
  reader finds the identifiers of its services and operations, in order, and nothing
  else (`Document.declarations_render_eq`). They are the identifiers that are claimed
  in the registry for these services (`declared_perm_claims`).

  Two things keep the lines of a document in place. Names that are inserted as they
  are stay on their line (`Document.Legible`), and a literal has no line break
  whatever its text is (`oneLine_literal`), so runtime names need no condition.
-/
import GoBindings.Document.Render
import GoBindings.Proofs.Text
import GoBindings.Registry

namespace GoBindings

open Text (OneLine dropReturn)

/-! ### What is inserted and what is declared -/

/-- The texts about an operation that are inserted as they are. -/
def BoundOperation.insertions (op : BoundOperation) : List String :=
  [op.methodName, op.names.handlerMethod, op.names.execute, op.names.start,
    op.names.operationNameConst, op.input.text, op.output.text]

namespace BoundService

/-- The texts about a service that are inserted as they are. -/
def insertions (s : BoundService) : List String :=
  [s.service.fullName, s.names.serviceNameConst, s.names.client, s.names.clientConstructor,
      s.names.handler, s.names.register]
    ++ s.operations.flatMap (·.insertions)

/-- The identifiers that a service declares for its package, in the order of the file. -/
def declared (s : BoundService) : List String :=
  s.names.serviceNameConst :: s.operations.map (·.names.operationNameConst)
    ++ [s.names.client, s.names.clientConstructor, s.names.handler, s.names.register]

end BoundService

/-- The texts of a document that are inserted as they are. -/
def Document.insertions (d : Document) : List String :=
  [d.source, d.packageName, d.generatorVersion] ++ d.compilerVersion.toList
    ++ d.imports.entries.map (·.2) ++ d.services.flatMap (·.insertions)

/-- The identifiers that a document declares for its package, in the order of the file. -/
def Document.declared (d : Document) : List String := d.services.flatMap (·.declared)

/-! ### Reading declarations -/

/-- The word that a text begins with: it ends where a space or a parenthesis follows. -/
def leadingWord (s : String) : String :=
  String.ofList (s.toList.takeWhile fun c => c != ' ' && c != '(')

/-- The identifier that a line declares for its package. A function with a receiver is not
    declared for the package. -/
def declared? (line : String) : Option String :=
  ((Text.dropStart? "const " line).or
    ((Text.dropStart? "type " line).or
      ((Text.dropStart? "func " line).filter fun rest =>
        (Text.dropStart? "(" rest).isNone))).map leadingWord

/-- The identifiers that a Go file declares for its package, in order. -/
def declarations (content : String) : List String :=
  (Text.lines content).filterMap declared?

/-- The text has nothing in it that ends a word. -/
def IsWord (s : String) : Prop := ' ' ∉ s.toList ∧ '(' ∉ s.toList

instance (s : String) : Decidable (IsWord s) := inferInstanceAs (Decidable (_ ∧ _))

/-- The text begins with what ends a word. -/
def EndsWord (tail : String) : Prop :=
  tail.toList.head? = some ' ' ∨ tail.toList.head? = some '('

theorem leadingWord_append {name tail : String} (hname : IsWord name) (htail : EndsWord tail) :
    leadingWord (name ++ tail) = name := by
  have hkeep : ∀ c ∈ name.toList, (c != ' ' && c != '(') = true := by
    intro c hc
    simp only [Bool.and_eq_true, bne_iff_ne, ne_eq]
    exact ⟨fun hspace => hname.1 (hspace ▸ hc), fun hparen => hname.2 (hparen ▸ hc)⟩
  have hstop : tail.toList.takeWhile (fun c => c != ' ' && c != '(') = [] := by
    unfold EndsWord at htail
    cases hchars : tail.toList with
    | nil => rfl
    | cons c cs =>
      rw [hchars, List.head?_cons, Option.some_inj, Option.some_inj] at htail
      rcases htail with rfl | rfl <;> rfl
  rw [leadingWord, String.toList_append, List.takeWhile_append_of_pos hkeep, hstop,
    List.append_nil, String.ofList_toList]

/-! ### Single lines -/

/-- The identifier that a line of a file declares, with or without a carriage return at its
    end. -/
def readLine (line : String) : Option String := declared? (dropReturn line)

/-- The line begins with none of the letters that keywords begin with. -/
def quiet (line : String) : Bool := line.toList.head?.any fun c => !(['c', 't', 'f'].contains c)

theorem quiet_append {c : Char} {cs : List Char} (h : ['c', 't', 'f'].contains c = false)
    (rest : String) : quiet (String.ofList (c :: cs) ++ rest) := by
  rw [quiet, String.toList_append, String.toList_ofList, List.cons_append, List.head?_cons,
    Option.any_some, h]
  rfl

theorem quiet_ofList {c : Char} {cs : List Char} (h : ['c', 't', 'f'].contains c = false) :
    quiet (String.ofList (c :: cs)) := by
  rw [← String.append_empty (s := String.ofList (c :: cs))]
  exact quiet_append h ""

/-- A line without a keyword declares nothing. -/
theorem readLine_of_quiet {line : String} (h : quiet line) : readLine line = none := by
  have hhead : ∀ c, (dropReturn line).toList.head? = some c → c ∉ ['c', 't', 'f'] := by
    intro c hc
    simpa [quiet, Text.head?_dropReturn hc] using h
  -- every keyword would have to begin with the first letter of the line
  unfold readLine declared? Text.dropStart?
  cases hchars : (dropReturn line).toList with
  | nil => rfl
  | cons c cs =>
    have hc := hhead c (by rw [hchars, List.head?_cons])
    simp only [List.mem_cons, not_or] at hc
    simp [List.isPrefixOf?, Ne.symm hc.1, Ne.symm hc.2.1, Ne.symm hc.2.2.1]

theorem declared?_const (rest : String) :
    declared? ("const " ++ rest) = some (leadingWord rest) := by
  simp [declared?]

theorem declared?_type (rest : String) : declared? ("type " ++ rest) = some (leadingWord rest) := by
  have hconst : Text.dropStart? "const " ("type " ++ rest) = none := by
    simp [Text.dropStart?, List.isPrefixOf?]
  simp [declared?, hconst]

theorem declared?_func (rest : String) :
    declared? ("func " ++ rest) =
      match Text.dropStart? "(" rest with
      | none => some (leadingWord rest)
      | some _ => none := by
  have hconst : Text.dropStart? "const " ("func " ++ rest) = none := by
    simp [Text.dropStart?, List.isPrefixOf?]
  have htype : Text.dropStart? "type " ("func " ++ rest) = none := by
    simp [Text.dropStart?, List.isPrefixOf?]
  cases hreceiver : Text.dropStart? "(" rest with
  | none => simp [declared?, hconst, htype, hreceiver]
  | some _ => simp [declared?, hconst, htype, hreceiver]

theorem EndsWord.dropReturn {tail : String} (h : EndsWord tail) : EndsWord (dropReturn tail) := by
  unfold Text.dropReturn
  cases hdrop : Text.dropEnd? "\r" tail with
  | none => exact h
  | some rest =>
    obtain rfl := Text.dropEnd?_eq_some_iff.mp hdrop
    rw [Option.getD_some]
    unfold EndsWord at h ⊢
    rw [String.toList_append] at h
    cases hchars : rest.toList with
    | nil => rw [hchars] at h; simp at h
    | cons c cs => rw [hchars] at h; exact h

theorem readLine_keyword (keyword name : String) {tail : String} (htail : EndsWord tail) :
    ∃ tail', EndsWord tail' ∧
      readLine (keyword ++ (name ++ tail)) = declared? (keyword ++ (name ++ tail')) := by
  have htail' : tail ≠ "" := by
    rintro rfl
    simp [EndsWord] at htail
  have hname : name ++ tail ≠ "" := by
    rw [Ne, String.append_eq_empty_iff]
    exact fun h => htail' h.2
  exact ⟨_, htail.dropReturn,
    by rw [readLine, Text.dropReturn_append hname, Text.dropReturn_append htail']⟩

theorem readLine_const {name tail : String} (hname : IsWord name) (htail : EndsWord tail) :
    readLine ("const " ++ (name ++ tail)) = some name := by
  obtain ⟨tail', htail', hread⟩ := readLine_keyword "const " name htail
  rw [hread, declared?_const, leadingWord_append hname htail']

theorem readLine_type {name tail : String} (hname : IsWord name) (htail : EndsWord tail) :
    readLine ("type " ++ (name ++ tail)) = some name := by
  obtain ⟨tail', htail', hread⟩ := readLine_keyword "type " name htail
  rw [hread, declared?_type, leadingWord_append hname htail']

theorem readLine_func {name tail : String} (hname : IsWord name) (hne : name ≠ "")
    (htail : EndsWord tail) : readLine ("func " ++ (name ++ tail)) = some name := by
  obtain ⟨tail', htail', hread⟩ := readLine_keyword "func " name htail
  -- a name that is a word cannot look like a receiver, unless it is empty
  have hreceiver : Text.dropStart? "(" (name ++ tail') = none := by
    rw [Text.dropStart?_eq_none_iff]
    intro rest heq
    have hchars := congrArg String.toList heq
    rw [String.toList_append, String.toList_append] at hchars
    cases hcs : name.toList with
    | nil => exact hne (String.toList_eq_nil_iff.mp hcs)
    | cons c cs =>
      rw [hcs] at hchars
      obtain rfl : c = '(' := (List.cons.inj hchars).1
      exact hname.2 (hcs ▸ List.mem_cons_self)
  rw [hread, declared?_func, hreceiver, leadingWord_append hname htail']

/-- A method is not declared for the package. -/
theorem readLine_method (rest : String) : readLine ("func (c *" ++ rest) = none := by
  have hstart : "func (c *" = "func " ++ ("(" ++ "c *") := rfl
  have hne : "(" ++ ("c *" ++ rest) ≠ "" := by simp
  have hne' : "c *" ++ rest ≠ "" := by simp
  rw [hstart, readLine, String.append_assoc, String.append_assoc, Text.dropReturn_append hne,
    Text.dropReturn_append hne', declared?_func, Text.dropStart?_append]

/-! ### Blocks of lines -/

/-- The identifiers that lines declare, in order. -/
def outline (ls : List String) : List String := ls.filterMap readLine

@[simp] theorem outline_nil : outline [] = [] := rfl

theorem outline_cons_none {line : String} (h : readLine line = none) (ls : List String) :
    outline (line :: ls) = outline ls :=
  List.filterMap_cons_none h

theorem outline_cons_empty (ls : List String) : outline ("" :: ls) = outline ls :=
  outline_cons_none (by decide) ls

theorem outline_cons_quiet {line : String} (h : quiet line) (ls : List String) :
    outline (line :: ls) = outline ls :=
  outline_cons_none (readLine_of_quiet h) ls

theorem outline_cons_some {line name : String} (h : readLine line = some name)
    (ls : List String) : outline (line :: ls) = name :: outline ls :=
  List.filterMap_cons_some h

theorem outline_append (ls ms : List String) : outline (ls ++ ms) = outline ls ++ outline ms :=
  List.filterMap_append

theorem outline_flatMap {α : Type} (f : α → List String) (xs : List α) :
    outline (xs.flatMap f) = xs.flatMap fun x => outline (f x) := by
  induction xs with
  | nil => rfl
  | cons x xs ih => rw [List.flatMap_cons, outline_append, ih, List.flatMap_cons]

theorem outline_eq_nil {ls : List String} (h : ∀ line ∈ ls, readLine line = none) :
    outline ls = [] :=
  List.filterMap_eq_nil_iff.mpr h

namespace Document

theorem outline_constantLine {name : String} (hname : IsWord name) (value : String)
    (ls : List String) : outline (constantLine name value :: ls) = name :: outline ls := by
  have hline : constantLine name value = "const " ++ (name ++ (" = " ++ Go.literal value)) := by
    rw [constantLine, String.append_assoc, String.append_assoc]
  rw [hline]
  exact outline_cons_some (readLine_const hname (by simp [EndsWord])) ls

theorem outline_serviceConstant {s : BoundService} (h : IsWord s.names.serviceNameConst) :
    outline (serviceConstant s) = [s.names.serviceNameConst] := by
  simp (disch := first | exact quiet_ofList rfl | exact quiet_append rfl _) only
    [serviceConstant, String.append_assoc, outline_cons_empty, outline_cons_quiet,
      outline_constantLine h, outline_nil]

theorem outline_operationConstant (s : BoundService) {op : BoundOperation}
    (h : IsWord op.names.operationNameConst) :
    outline (operationConstant s op) = [op.names.operationNameConst] := by
  simp (disch := first | exact quiet_ofList rfl | exact quiet_append rfl _) only
    [operationConstant, String.append_assoc, outline_cons_empty, outline_cons_quiet,
      outline_constantLine h, outline_nil]

theorem outline_clientType (fw : Framework) {s : BoundService} (hclient : IsWord s.names.client)
    (hconstructor : IsWord s.names.clientConstructor) (hne : s.names.clientConstructor ≠ "") :
    outline (clientType fw s) = [s.names.client, s.names.clientConstructor] := by
  have htype : readLine ("type " ++ (s.names.client ++ " struct \x7b")) = some s.names.client :=
    readLine_type hclient (by simp [EndsWord])
  have hfunc : ∀ tail, readLine ("func " ++ (s.names.clientConstructor
      ++ ("(endpoint string) *" ++ tail))) = some s.names.clientConstructor :=
    fun tail => readLine_func hconstructor hne (by simp [EndsWord])
  simp (disch := first | exact quiet_ofList rfl | exact quiet_append rfl _) only
    [clientType, String.append_assoc, outline_cons_empty, outline_cons_quiet,
      outline_cons_some htype, outline_cons_some (hfunc _), outline_nil]

theorem outline_startMethod (fw : Framework) (s : BoundService) (op : BoundOperation) :
    outline (startMethod fw s op) = [] := by
  simp (disch := first | exact quiet_ofList rfl | exact quiet_append rfl _) only
    [startMethod, String.append_assoc, outline_cons_empty, outline_cons_quiet,
      outline_cons_none (readLine_method _), outline_nil]

theorem outline_executeMethod (fw : Framework) (s : BoundService) (op : BoundOperation) :
    outline (executeMethod fw s op) = [] := by
  simp (disch := first | exact quiet_ofList rfl | exact quiet_append rfl _) only
    [executeMethod, String.append_assoc, outline_cons_empty, outline_cons_quiet,
      outline_cons_none (readLine_method _), outline_nil]

theorem outline_clientLines (fw : Framework) {s : BoundService} (hclient : IsWord s.names.client)
    (hconstructor : IsWord s.names.clientConstructor) (hne : s.names.clientConstructor ≠ "") :
    outline (clientLines fw s) = [s.names.client, s.names.clientConstructor] := by
  have hmethods : outline (s.operations.flatMap fun op =>
      startMethod fw s op ++ executeMethod fw s op) = [] := by
    rw [outline_flatMap, List.flatMap_eq_nil_iff]
    intro op _
    rw [outline_append, outline_startMethod, outline_executeMethod, List.append_nil]
  rw [clientLines, outline_append, outline_clientType fw hclient hconstructor hne, hmethods,
    List.append_nil]

theorem forall_mem_spaced {p : String → Prop} {blocks : List (List String)} (hempty : p "")
    (h : ∀ block ∈ blocks, ∀ line ∈ block, p line) : ∀ line ∈ spaced blocks, p line := by
  induction blocks using spaced.induct with
  | case1 => exact List.forall_mem_nil p
  | case2 block => exact h block List.mem_cons_self
  | case3 block rest hrest ih =>
    rw [spaced, List.forall_mem_append, List.forall_mem_cons]
    · exact ⟨h block List.mem_cons_self, hempty,
        ih fun b hb => h b (List.mem_cons_of_mem block hb)⟩
    · exact hrest

theorem outline_handlerMethod (fw : Framework) (op : BoundOperation) :
    outline (handlerMethod fw op) = [] := by
  simp (disch := first | exact quiet_ofList rfl | exact quiet_append rfl _) only
    [handlerMethod, String.append_assoc, outline_cons_quiet, outline_nil]

theorem outline_handlerLines (fw : Framework) {s : BoundService}
    (h : IsWord s.names.handler) : outline (handlerLines fw s) = [s.names.handler] := by
  have htype : readLine ("type " ++ (s.names.handler ++ " interface \x7b")) =
      some s.names.handler :=
    readLine_type h (by simp [EndsWord])
  have hmethods : outline (spaced (s.operations.map (handlerMethod fw))) = [] := by
    refine outline_eq_nil (forall_mem_spaced (by decide) fun block hblock => ?_)
    obtain ⟨op, -, rfl⟩ := List.mem_map.mp hblock
    exact List.filterMap_eq_nil_iff.mp (outline_handlerMethod fw op)
  simp (disch := first | exact quiet_ofList rfl | exact quiet_append rfl _) only
    [handlerLines, String.append_assoc, outline_append, hmethods, outline_cons_empty,
      outline_cons_quiet, outline_cons_some htype, outline_nil, List.append_nil]

theorem outline_registrationCall (s : BoundService) : outline (registrationCall s) = [] := by
  have hlines : outline (s.operations.map registrationLine) = [] := by
    refine outline_eq_nil fun line hline => ?_
    obtain ⟨op, -, rfl⟩ := List.mem_map.mp hline
    rw [registrationLine, String.append_assoc, String.append_assoc, String.append_assoc]
    exact readLine_of_quiet (quiet_append rfl _)
  unfold registrationCall
  split
  · rfl
  · simp (disch := first | exact quiet_ofList rfl | exact quiet_append rfl _) only
      [outline_append, hlines, outline_cons_quiet, outline_nil, List.append_nil]

theorem outline_registerLines (fw : Framework) {s : BoundService} (h : IsWord s.names.register)
    (hne : s.names.register ≠ "") : outline (registerLines fw s) = [s.names.register] := by
  have hfunc : ∀ tail, readLine ("func " ++ (s.names.register ++ ("(registry " ++ tail))) =
      some s.names.register :=
    fun tail => readLine_func h hne (by simp [EndsWord])
  simp (disch := first | exact quiet_ofList rfl | exact quiet_append rfl _) only
    [registerLines, String.append_assoc, outline_append, outline_registrationCall,
      outline_cons_empty, outline_cons_quiet, outline_cons_some (hfunc _), outline_nil,
      List.append_nil]

theorem outline_headerLines (d : Document) : outline d.headerLines = [] := by
  have hversions : outline d.versionLines = [] := by
    cases hcompiler : d.compilerVersion <;>
      simp (disch := first | exact quiet_ofList rfl | exact quiet_append rfl _) only
        [versionLines, hcompiler, Option.map_none, Option.map_some, Option.toList_none,
          Option.toList_some, String.append_assoc, outline_append, outline_cons_quiet,
          outline_nil, List.append_nil]
  have himports : outline (d.imports.sorted.map importLine) = [] := by
    refine outline_eq_nil fun line hline => ?_
    obtain ⟨entry, -, rfl⟩ := List.mem_map.mp hline
    rw [importLine, String.append_assoc, String.append_assoc]
    exact readLine_of_quiet (quiet_append rfl _)
  simp (disch := first | exact quiet_ofList rfl | exact quiet_append rfl _) only
    [headerLines, String.append_assoc, outline_append, hversions, himports, outline_cons_empty,
      outline_cons_quiet, outline_nil, List.append_nil]

theorem outline_serviceLines (fw : Framework) {s : BoundService}
    (hwords : ∀ ident ∈ s.declared, IsWord ident)
    (hnamed : s.names.clientConstructor ≠ "" ∧ s.names.register ≠ "") :
    outline (serviceLines fw s) = s.declared := by
  simp only [BoundService.declared, List.forall_mem_append, List.forall_mem_cons,
    List.forall_mem_map] at hwords
  obtain ⟨⟨hconst, hops⟩, hclient, hconstructor, hhandler, hregister, -⟩ := hwords
  have hconstants : outline (s.operations.flatMap (operationConstant s)) =
      s.operations.map (·.names.operationNameConst) := by
    rw [outline_flatMap, List.map_eq_flatMap]
    exact List.flatMap_congr fun op hop => outline_operationConstant s (hops op hop)
  simp only [serviceLines, outline_append, outline_serviceConstant hconst, hconstants,
    outline_clientLines fw hclient hconstructor hnamed.1, outline_handlerLines fw hhandler,
    outline_registerLines fw hregister hnamed.2, BoundService.declared, List.cons_append,
    List.append_assoc, List.nil_append]

/-! ### Lines keep to themselves -/

theorem hexDigit_ne_newline (n : Nat) : Go.Literal.hexDigit n ≠ '\n' := by
  unfold Go.Literal.hexDigit
  by_cases h : n < 16
  · have hdigits : ∀ m < 16, Nat.digitChar m ≠ '\n' := by decide
    exact hdigits n h
  · rw [Nat.digitChar_eq_star.mpr (by omega)]
    decide

/-- A line break is written by its short escape, and no other character by one. -/
theorem newline_not_mem_escape (c : Char) : '\n' ∉ Go.Literal.escape c := by
  unfold Go.Literal.escape
  split_ifs with hquote hbackslash hnewline hreturn htab hcontrol
  · decide
  · decide
  · decide
  · decide
  · decide
  · simp [Ne.symm (hexDigit_ne_newline _)]
  · simpa [eq_comm] using hnewline

/-- Every text has its literal on one line. -/
theorem oneLine_literal (s : String) : OneLine (Go.literal s) := by
  have hbody : '\n' ∉ s.toList.flatMap Go.Literal.escape := by
    rw [List.mem_flatMap]
    rintro ⟨c, -, hc⟩
    exact newline_not_mem_escape c hc
  simp [OneLine, Go.literal, hbody]

theorem oneLine_framework {d : Document} (h : ∀ text ∈ d.insertions, OneLine text) :
    OneLine d.framework.nexus ∧ OneLine d.framework.worker ∧ OneLine d.framework.workflow := by
  have halias : ∀ path usual, OneLine usual → OneLine ((d.imports.alias? path).getD usual) := by
    intro path usual husual
    cases hlookup : d.imports.alias? path with
    | none => exact husual
    | some found =>
      obtain ⟨before, after, hentries, -⟩ := List.lookup_eq_some_iff.mp hlookup
      refine h found ?_
      simp only [insertions, hentries, List.mem_append, List.mem_map]
      exact .inl (.inr ⟨(path, found), .inr List.mem_cons_self, rfl⟩)
  have hnexus : OneLine "nexus" := Text.oneLine_ofList rfl
  have hworker : OneLine "worker" := Text.oneLine_ofList rfl
  have hworkflow : OneLine "workflow" := Text.oneLine_ofList rfl
  exact ⟨halias _ _ hnexus, halias _ _ hworker, halias _ _ hworkflow⟩

theorem oneLine_headerLines {d : Document} (h : ∀ text ∈ d.insertions, OneLine text) :
    ∀ line ∈ d.headerLines, OneLine line := by
  simp only [insertions, List.forall_mem_append, List.forall_mem_cons] at h
  obtain ⟨⟨⟨⟨hsource, hpackage, hversion, -⟩, hcompiler⟩, haliases⟩, -⟩ := h
  have hprotoc : OneLine "// \tprotoc " := Text.oneLine_ofList rfl
  have hcompilerLine : ∀ line ∈ (d.compilerVersion.map fun v => "// \tprotoc " ++ v).toList,
      OneLine line := by
    intro line hline
    rw [Option.mem_toList, Option.map_eq_some_iff] at hline
    obtain ⟨v, hv, rfl⟩ := hline
    exact Text.oneLine_append.mpr ⟨hprotoc, hcompiler v (Option.mem_toList.mpr hv)⟩
  have himports : ∀ line ∈ d.imports.sorted.map importLine, OneLine line := by
    intro line hline
    obtain ⟨entry, hentry, rfl⟩ := List.mem_map.mp hline
    have hmem : entry ∈ d.imports.entries := List.mem_mergeSort.mp hentry
    have halias : OneLine entry.2 := haliases entry.2 (List.mem_map_of_mem hmem)
    simp only [importLine, Text.oneLine_append, halias, oneLine_literal, and_true]
    exact ⟨Text.oneLine_ofList rfl, Text.oneLine_ofList rfl⟩
  simp only [headerLines, versionLines, List.forall_mem_append]
  refine ⟨⟨⟨⟨?_, ?_, hcompilerLine⟩, ?_⟩, himports⟩, ?_⟩
  all_goals
    simp only [generatorName, List.forall_mem_cons, List.not_mem_nil, false_imp_iff,
      implies_true, Text.oneLine_append, hsource, hpackage, hversion, and_true]
    and_intros <;> exact Text.oneLine_ofList rfl

theorem oneLine_operationLines {fw : Framework} {s : BoundService} {op : BoundOperation}
    (hfw : OneLine fw.nexus ∧ OneLine fw.worker ∧ OneLine fw.workflow)
    (hs : ∀ text ∈ s.insertions, OneLine text) (hop : ∀ text ∈ op.insertions, OneLine text) :
    (∀ line ∈ operationConstant s op, OneLine line) ∧
      (∀ line ∈ startMethod fw s op ++ executeMethod fw s op, OneLine line) ∧
      (∀ line ∈ handlerMethod fw op, OneLine line) ∧ OneLine (registrationLine op) := by
  simp only [BoundService.insertions, List.forall_mem_append, List.forall_mem_cons] at hs
  obtain ⟨⟨hfull, -, hclient, -, -, -, -⟩, -⟩ := hs
  simp only [BoundOperation.insertions, List.forall_mem_cons] at hop
  obtain ⟨hmethod, hhandler, hexecute, hstart, hconst, hinput, houtput, -⟩ := hop
  simp only [operationConstant, constantLine, startMethod, executeMethod, handlerMethod,
    registrationLine, parameters, List.forall_mem_append, List.forall_mem_cons,
    List.not_mem_nil, false_imp_iff, implies_true, Text.oneLine_append, oneLine_literal, hfw,
    hfull, hclient, hmethod, hhandler, hexecute, hstart, hconst, hinput, houtput, and_true]
  and_intros <;> exact Text.oneLine_ofList rfl

theorem oneLine_serviceLines {fw : Framework} {s : BoundService}
    (hfw : OneLine fw.nexus ∧ OneLine fw.worker ∧ OneLine fw.workflow)
    (hs : ∀ text ∈ s.insertions, OneLine text) :
    ∀ line ∈ serviceLines fw s, OneLine line := by
  have hops : ∀ op ∈ s.operations, ∀ text ∈ op.insertions, OneLine text := by
    intro op hop text htext
    exact hs text (List.mem_append_right _ (List.mem_flatMap_of_mem hop htext))
  have hlines := fun op hop => oneLine_operationLines hfw hs (hops op hop)
  have hconstants : ∀ line ∈ s.operations.flatMap (operationConstant s), OneLine line :=
    List.forall_mem_flatMap.mpr fun op hop => (hlines op hop).1
  have hmethods : ∀ line ∈ s.operations.flatMap fun op =>
      startMethod fw s op ++ executeMethod fw s op, OneLine line :=
    List.forall_mem_flatMap.mpr fun op hop => (hlines op hop).2.1
  have hhandlers : ∀ line ∈ spaced (s.operations.map (handlerMethod fw)), OneLine line := by
    refine forall_mem_spaced (Text.oneLine_ofList rfl) fun block hblock => ?_
    obtain ⟨op, hop, rfl⟩ := List.mem_map.mp hblock
    exact (hlines op hop).2.2.1
  have hcalls : ∀ line ∈ s.operations.map registrationLine, OneLine line :=
    List.forall_mem_map.mpr fun op hop => (hlines op hop).2.2.2
  have hcall : ∀ line ∈ registrationCall s, OneLine line := by
    unfold registrationCall
    split
    · exact List.forall_mem_nil _
    · rw [List.forall_mem_append, List.forall_mem_append]
      refine ⟨⟨?_, hcalls⟩, ?_⟩
      all_goals
        simp only [List.forall_mem_cons, List.not_mem_nil, false_imp_iff, implies_true, and_true]
        and_intros <;> exact Text.oneLine_ofList rfl
  simp only [BoundService.insertions, List.forall_mem_append, List.forall_mem_cons] at hs
  obtain ⟨⟨hfull, hconst, hclient, hconstructor, hhandler, hregister, -⟩, -⟩ := hs
  simp only [serviceLines, serviceConstant, constantLine, clientLines, clientType, handlerLines,
    registerLines, List.forall_mem_append]
  refine ⟨⟨⟨⟨?_, hconstants⟩, ?_, hmethods⟩, ⟨?_, hhandlers⟩, ?_⟩, ⟨?_, hcall⟩, ?_⟩
  all_goals
    simp only [List.forall_mem_cons, List.not_mem_nil, false_imp_iff, implies_true,
      Text.oneLine_append, oneLine_literal, hfw, hfull, hconst, hclient, hconstructor, hhandler,
      hregister, and_true]
    and_intros <;> exact Text.oneLine_ofList rfl

/-! ### The text of a document -/

/-- The condition under which a document can be read back. The texts that are inserted as
    they are have no line breaks, the identifiers that are declared are words, and
    functions have names, as derived ones do (`Legible.of_derived`). Runtime names may be
    anything. -/
structure Legible (d : Document) : Prop where
  oneLine : ∀ text ∈ d.insertions, OneLine text
  words : ∀ ident ∈ d.declared, IsWord ident
  named : ∀ s ∈ d.services, s.names.clientConstructor ≠ "" ∧ s.names.register ≠ ""

/-- No prefix and suffix that identifiers are derived with leave one empty. -/
theorem named_ofName (name : String) :
    (ServiceNames.ofName name).clientConstructor ≠ "" ∧ (ServiceNames.ofName name).register ≠ "" := by
  constructor <;> simp [ServiceNames.ofName, String.append_eq_empty_iff]

/-- Whatever the names are that a document derives its identifiers from, its functions are
    named. -/
theorem Legible.of_derived {d : Document} (honeLine : ∀ text ∈ d.insertions, OneLine text)
    (hwords : ∀ ident ∈ d.declared, IsWord ident)
    (hderived : ∀ s ∈ d.services, s.names = ServiceNames.ofName s.service.name) : d.Legible where
  oneLine := honeLine
  words := hwords
  named s hs := hderived s hs ▸ named_ofName s.service.name

theorem oneLine_lines {d : Document} (h : ∀ text ∈ d.insertions, OneLine text) :
    ∀ line ∈ d.lines, OneLine line := by
  have hservices : ∀ s ∈ d.services, ∀ text ∈ s.insertions, OneLine text := by
    intro s hs text htext
    exact h text (List.mem_append_right _ (List.mem_flatMap_of_mem hs htext))
  rw [lines, List.forall_mem_append]
  exact ⟨oneLine_headerLines h, List.forall_mem_flatMap.mpr fun s hs =>
    oneLine_serviceLines (oneLine_framework h) (hservices s hs)⟩

theorem outline_lines {d : Document} (h : d.Legible) : outline d.lines = d.declared := by
  have hservices : ∀ s ∈ d.services, outline (serviceLines d.framework s) = s.declared := by
    intro s hs
    refine outline_serviceLines d.framework (fun ident hident => ?_) (h.named s hs)
    exact h.words ident (List.mem_flatMap_of_mem hs hident)
  rw [lines, outline_append, outline_headerLines, outline_flatMap, List.nil_append]
  exact List.flatMap_congr hservices

/-- In the text of a legible document the reader finds what the document declares. -/
theorem declarations_render_eq {d : Document} (h : d.Legible) :
    declarations d.render = d.declared := by
  rw [declarations, render, Text.lines_join (oneLine_lines h.oneLine), List.filterMap_map]
  exact outline_lines h

end Document

/-! ### Declarations and claims -/

/-- The bound service is the named one with types for its operations. -/
structure Binds (b : BoundService) (n : NamedService) : Prop where
  service : b.service = n.service
  names : b.names = n.names
  operations : b.operations.map (·.names) = n.operations.map (·.names)

theorem Binds.declared_perm {b : BoundService} {n : NamedService} (h : Binds b n)
    (path : String) : b.declared.Perm ((Registry.serviceClaims path n).map (·.ident)) := by
  have hops : b.operations.map (·.names.operationNameConst) =
      n.operations.map (·.names.operationNameConst) := by
    have hnames := congrArg (List.map (·.operationNameConst)) h.operations
    rwa [List.map_map, List.map_map] at hnames
  have hclaims : (Registry.serviceClaims path n).map (·.ident) =
      b.names.serviceNameConst :: ([b.names.client, b.names.clientConstructor, b.names.handler,
        b.names.register] ++ b.operations.map (·.names.operationNameConst)) := by
    rw [Registry.serviceClaims, List.map_append, List.map_map, List.map_map, h.names, hops]
    rfl
  rw [hclaims, BoundService.declared, List.cons_append]
  exact List.Perm.cons _ List.perm_append_comm

theorem declared_perm_claims {services : List BoundService} {named : List NamedService}
    (h : List.Forall₂ Binds services named) (path : String) :
    (services.flatMap (·.declared)).Perm
      ((named.flatMap (Registry.serviceClaims path)).map (·.ident)) := by
  induction h with
  | nil => exact List.Perm.refl []
  | cons hfirst _ ih =>
    rw [List.flatMap_cons, List.flatMap_cons, List.map_append]
    exact (hfirst.declared_perm path).append ih

/-- What a reader finds in the text of a document is what its services and operations
    declare, in order, and so it is what is claimed for them in the registry, whatever the
    path is. -/
theorem declarations_render {d : Document} (h : d.Legible) :
    declarations d.render = d.services.flatMap (·.declared) ∧
      ∀ (path : String) (named : List NamedService), List.Forall₂ Binds d.services named →
        (declarations d.render).Perm
          ((named.flatMap (Registry.serviceClaims path)).map (·.ident)) := by
  have hrender := Document.declarations_render_eq h
  refine ⟨hrender, fun path named hnamed => ?_⟩
  rw [hrender]
  exact declared_perm_claims hnamed path

/-- A service whose runtime name, and that of its operation, look like declarations. -/
def disguisedService : NamedService where
  service := ⟨"shop.Shop", "Shop", "shop", "shop.proto", some "x\nconst Other = 1\n",
    [⟨"Order", ".shop.Cart", ".shop.Receipt", some "\ntype Order struct \x7b"⟩]⟩
  names := ⟨"Shop", "ShopServiceName", "ShopNexusClient", "NewShopNexusClient",
    "ShopNexusServiceHandler", "RegisterShopNexusServiceHandler"⟩
  operations := [⟨⟨"Order", ".shop.Cart", ".shop.Receipt", some "\ntype Order struct \x7b"⟩,
    ⟨"Order", "ExecuteOrder", "StartOrder", "ShopOrderOperationName",
      "\ntype Order struct \x7b"⟩⟩]

def disguisedDocument : Document where
  source := "shop.proto"
  packageName := "shop"
  generatorVersion := "0.1.0"
  compilerVersion := some "v5.27.1"
  imports := Go.Imports.framework
  services := [⟨disguisedService.service, disguisedService.names,
    [⟨"Order", ⟨"Order", "ExecuteOrder", "StartOrder", "ShopOrderOperationName",
      "\ntype Order struct \x7b"⟩, ⟨none, "Cart"⟩, ⟨none, "Receipt"⟩⟩]⟩]

theorem declarations_render_disguised :
    disguisedDocument.Legible ∧ List.Forall₂ Binds disguisedDocument.services [disguisedService] ∧
      declarations disguisedDocument.render =
        ["ShopServiceName", "ShopOrderOperationName", "ShopNexusClient", "NewShopNexusClient",
          "ShopNexusServiceHandler", "RegisterShopNexusServiceHandler"] ∧
      (declarations disguisedDocument.render).Perm
        (([disguisedService].flatMap (Registry.serviceClaims "example.com/shop")).map
          (·.ident)) := by
  have hlegible : disguisedDocument.Legible :=
    .of_derived (by decide +kernel) (by decide +kernel) (by decide +kernel)
  have hbinds : List.Forall₂ Binds disguisedDocument.services [disguisedService] :=
    .cons ⟨rfl, rfl, rfl⟩ .nil
  obtain ⟨horder, hclaims⟩ := declarations_render hlegible
  exact ⟨hlegible, hbinds, horder, hclaims _ _ hbinds⟩

end GoBindings
