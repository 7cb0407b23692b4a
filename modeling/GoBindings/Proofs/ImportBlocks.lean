/-
  GoBindings/Proofs/ImportBlocks.lean
  ===================================
  **Import blocks fit what stands behind them.**

  A file imports the framework and the packages of the messages that its methods take and
  give, except its own, and lists them in the order of their paths. A message of another
  package is written behind the alias that the block binds to its package, so different
  messages are written differently. As every service needs the framework, and no part of a
  service names a package that it does not need, the aliases of the block are exactly the
  packages that the text behind it uses.

  The last part needs names without line breaks, because names are put into comments as they
  are. With `Request.smuggled` the rest of a name leaves its comment.
-/
import GoBindings.Proofs.AliasClashes
import GoBindings.Proofs.Qualifiers

namespace GoBindings

open Go (IsName reservedLocals)
open Text (OneLine)

/-! ### Types as text -/

/-- A type can be told from its text, if its name has no dot. -/
theorem Go.TypeExpr.eq_of_text_eq {a b : Go.TypeExpr} (ha : Dotless a.ident)
    (hb : Dotless b.ident) (h : a.text = b.text) : a = b := by
  obtain ⟨aQualifier, aIdent⟩ := a
  obtain ⟨bQualifier, bIdent⟩ := b
  have hclosed : ∀ used : String, Text.ClosedBy '.' (used ++ ".") :=
    fun used => .inr ⟨used, rfl⟩
  have hdotted : ∀ used ident other : String, Dotless other → used ++ "." ++ ident ≠ other := by
    rintro used ident _ hother rfl
    exact hother (by simp)
  cases aQualifier with
  | none =>
    cases bQualifier with
    | none => exact congrArg (TypeExpr.mk none) h
    | some used => exact absurd h.symm (hdotted _ _ _ ha)
  | some used =>
    cases bQualifier with
    | none => exact absurd h (hdotted _ _ _ hb)
    | some other =>
      obtain ⟨hqualifier, hident⟩ :=
        Text.append_inj_of_closedBy ha hb (hclosed used) (hclosed other) h
      obtain rfl := (String.append_left_inj ".").mp hqualifier
      obtain rfl : aIdent = bIdent := hident
      rfl

namespace Environment

theorem types_entries (env : Environment) (f : Descriptor.File) (typeOf : String → Go.TypeExpr) :
    (env.entries f typeOf).flatMap (·.types) = f.typeCalls.map fun call => typeOf call.1 := by
  rw [entries, List.flatMap_map, Descriptor.File.typeCalls, List.map_flatMap]
  refine List.flatMap_congr fun s _ => ?_
  rw [List.map_flatMap, ServiceEntry.types, Service.entry, Descriptor.Service.toService,
    List.map_map, List.flatMap_map]
  rfl

namespace Publication.Written

variable {env : Environment} {p : Publication}

/-! ### Types of a file -/

/-- Every type that a method takes or gives is a message, and is written as one. -/
theorem exists_message (h : p.Written env) :
    ∀ call ∈ p.draft.source.typeCalls, ∃ m ∈ env.messagesFor p.draft.source,
      env.index.resolve? call.1 = some m ∧
        (p.draft.mapper env).exprFor p.document.imports call.1 =
          (p.draft.mapper env).exprOf p.document.imports m := by
  obtain ⟨mapped, hmapped, -, -⟩ := h.mapped
  have hresolve := (TypeMapper.extends_mapAll hmapped).1
  intro call hcall
  have hmem : env.index.resolve? call.1 ∈ mapped.map fun m => some m.message := by
    rw [← hresolve]
    exact List.mem_map.mpr ⟨call, hcall, rfl⟩
  obtain ⟨m, -, hm⟩ := List.mem_map.mp hmem
  have hm : env.index.resolve? call.1 = some m.message := hm.symm
  refine ⟨m.message, List.mem_filterMap.mpr ⟨call, hcall, hm⟩, hm, ?_⟩
  change ((env.index.resolve? call.1).map _).getD _ = _
  rw [hm]
  rfl

theorem mem_types_iff (h : p.Written env) {t : Go.TypeExpr} :
    t ∈ (p.entries env).flatMap (·.types) ↔ ∃ m ∈ env.messagesFor p.draft.source,
      (p.draft.mapper env).exprOf p.document.imports m = t := by
  rw [Publication.entries, types_entries, List.mem_map]
  constructor
  · rintro ⟨call, hcall, rfl⟩
    obtain ⟨m, hm, -, hexpr⟩ := h.exists_message call hcall
    exact ⟨m, hm, hexpr.symm⟩
  · rintro ⟨m, hm, rfl⟩
    obtain ⟨call, hcall, hresolve⟩ := List.mem_filterMap.mp hm
    obtain ⟨other, -, hother, hexpr⟩ := h.exists_message call hcall
    obtain rfl : other = m := Option.some.inj (hother.symm.trans hresolve)
    exact ⟨call, hcall, hexpr⟩

theorem dotless_goIdent (hindex : env.Indexed) {m : MessageRef}
    (hm : m ∈ env.messagesFor p.draft.source) : Dotless m.goIdent := by
  obtain ⟨call, -, hresolve⟩ := List.mem_filterMap.mp hm
  have hmem := (TypeIndex.resolve?_eq_some hresolve).1
  rw [hindex] at hmem
  obtain ⟨f, -, path, rfl⟩ := TypeIndex.eq_messageRef_of_mem_build hmem
  exact Go.dot_not_mem_camelCase path

/-- A message of another package has an alias in the import block. -/
theorem exists_alias (h : p.Written env) {m : MessageRef}
    (hm : m ∈ env.messagesFor p.draft.source)
    (hforeign : m.goPackage.importPath ≠ p.draft.package.importPath) :
    ∃ used, (m.goPackage.importPath, used) ∈ p.document.imports.entries ∧
      (p.draft.mapper env).exprOf p.document.imports m = ⟨some used, m.goIdent⟩ := by
  obtain ⟨mapped, -, hmessages, hextends⟩ := h.mapped
  obtain ⟨entry, hentry, rfl⟩ := List.mem_map.mp (hmessages ▸ hm)
  have hforeign : (p.draft.mapper env).IsForeign entry.message := hforeign
  have hpath := (hextends.paths _).mpr (.inr ⟨entry, hentry, hforeign, rfl⟩)
  obtain ⟨used, hused⟩ := Go.Imports.exists_alias?_of_mem_paths hpath
  exact ⟨used, Go.Imports.mem_entries_of_alias? hused, TypeMapper.exprOf_foreign hforeign hused⟩

theorem plain_exprOf (h : p.Written env) (hindex : env.Indexed) {m : MessageRef}
    (hm : m ∈ env.messagesFor p.draft.source) :
    ((p.draft.mapper env).exprOf p.document.imports m).Plain := by
  refine ⟨fun used hused => ?_, dotless_goIdent hindex hm⟩
  by_cases hhome : m.goPackage.importPath = p.draft.package.importPath
  · rw [TypeMapper.exprOf_home hhome] at hused
    exact nomatch hused
  · obtain ⟨found, hentry, hexpr⟩ := h.exists_alias hm hhome
    rw [hexpr] at hused
    obtain rfl := Option.some.inj hused
    exact h.isName_of_mem_aliases hindex (List.mem_map_of_mem hentry)

theorem plain_entries (h : p.Written env) (hindex : env.Indexed) :
    ∀ e ∈ p.entries env, e.Plain := by
  intro e he
  have htypes : ∀ t ∈ e.types, t.Plain := by
    intro t ht
    obtain ⟨m, hm, rfl⟩ := h.mem_types_iff.mp (List.mem_flatMap.mpr ⟨e, he, ht⟩)
    exact h.plain_exprOf hindex hm
  obtain ⟨d, -, rfl⟩ := List.mem_map.mp he
  refine ⟨Go.dot_not_mem_camelCase d.name, fun m hm => ?_⟩
  obtain ⟨hinput, houtput⟩ := ServiceEntry.mem_types hm
  refine ⟨?_, htypes _ hinput, htypes _ houtput⟩
  obtain ⟨op, -, rfl⟩ := List.mem_map.mp hm
  exact Go.dot_not_mem_camelCase op.methodName

/-! ### Aliases of a file -/

theorem paths_iff (h : p.Written env) (path : String) :
    path ∈ p.document.imports.paths ↔ path ∈ [Go.nexusPath, Go.workerPath, Go.workflowPath] ∨
      ∃ m ∈ env.messagesFor p.draft.source, m.goPackage.importPath = path ∧
        path ≠ p.draft.package.importPath := by
  obtain ⟨mapped, -, hmessages, hextends⟩ := h.mapped
  have hframework :
      Go.Imports.framework.paths = [Go.nexusPath, Go.workerPath, Go.workflowPath] := by
    rw [Go.Imports.paths, Go.Imports.entries_framework]
    rfl
  rw [hextends.paths, hframework, ← hmessages]
  refine or_congr_right ?_
  constructor
  · rintro ⟨m, hm, hforeign, rfl⟩
    exact ⟨m.message, List.mem_map_of_mem hm, rfl, hforeign⟩
  · rintro ⟨m, hm, rfl, hforeign⟩
    obtain ⟨entry, hentry, rfl⟩ := List.mem_map.mp hm
    exact ⟨entry, hentry, hforeign, rfl⟩

/-- The aliases of the block are the packages that the services need. -/
theorem mem_aliases_iff (h : p.Written env) (used : String) :
    used ∈ p.document.imports.aliases ↔ ∃ e ∈ p.entries env, used ∈ e.packages := by
  obtain ⟨mapped, -, hmessages, hextends⟩ := h.mapped
  constructor
  · intro hused
    obtain ⟨entry, hentry, rfl⟩ := List.mem_map.mp hused
    rcases hextends.entries entry hentry with hframework | ⟨m, hm, hforeign, hpath, -⟩
    · -- any service needs the framework, and a published file has one
      obtain ⟨d, hd⟩ := List.exists_mem_of_ne_nil _ h.nonempty
      refine ⟨_, List.mem_map_of_mem hd, List.mem_append_left _ ?_⟩
      rw [Go.Imports.entries_framework] at hframework
      exact List.mem_map_of_mem (f := (·.2)) hframework
    · -- the message that brought the path in is written with the path's only alias
      have hmem : m.message ∈ env.messagesFor p.draft.source :=
        hmessages ▸ List.mem_map_of_mem hm
      obtain ⟨found, hfound, hexpr⟩ := h.exists_alias hmem hforeign
      have hsame : p.document.imports.alias? entry.1 = some entry.2 :=
        h.wellFormed_imports.alias?_of_mem hentry
      rw [hpath] at hfound
      rw [h.wellFormed_imports.alias?_of_mem hfound] at hsame
      obtain rfl := Option.some.inj hsame
      obtain ⟨e, he, htype⟩ := List.mem_flatMap.mp (h.mem_types_iff.mpr ⟨_, hmem, hexpr⟩)
      exact ⟨e, he, ServiceEntry.mem_packages_of_mem_types htype (Option.mem_toList.mpr rfl)⟩
  · rintro ⟨e, he, hused⟩
    rcases List.mem_append.mp hused with hframework | htype
    · have husual : ∀ used ∈ ["nexus", "worker", "workflow"],
          ∃ path, Go.Imports.framework.alias? path = some used := by
        simp only [List.forall_mem_cons]
        exact ⟨⟨Go.nexusPath, by decide +kernel⟩, ⟨Go.workerPath, by decide +kernel⟩,
          ⟨Go.workflowPath, by decide +kernel⟩, List.forall_mem_nil _⟩
      obtain ⟨path, hpath⟩ := husual used hframework
      exact List.mem_map_of_mem (f := (·.2))
        (Go.Imports.mem_entries_of_alias? (hextends.kept path used hpath))
    · obtain ⟨t, ht, hqualifier⟩ := List.mem_filterMap.mp htype
      obtain ⟨m, hm, rfl⟩ := h.mem_types_iff.mp (List.mem_flatMap.mpr ⟨e, he, ht⟩)
      by_cases hhome : m.goPackage.importPath = p.draft.package.importPath
      · rw [TypeMapper.exprOf_home hhome] at hqualifier
        exact nomatch hqualifier
      · obtain ⟨found, hentry, hexpr⟩ := h.exists_alias hm hhome
        rw [hexpr] at hqualifier
        obtain rfl := Option.some.inj hqualifier
        exact List.mem_map_of_mem (f := (·.2)) hentry

/-- The lines of the services name the aliases of the block, and nothing else. -/
theorem exists_qualifiers_bodyLines_iff (h : p.Written env) (hindex : env.Indexed)
    (used : String) : (∃ line ∈ p.document.bodyLines, used ∈ qualifiers line) ↔
      used ∈ p.document.imports.aliases := by
  rw [h.presents_body.exists_qualifiers_iff, h.mem_aliases_iff]
  have hservice : ∀ e ∈ p.entries env, (∃ b ∈ e.blocks, ∃ line ∈ b.lines,
      used ∈ qualifiers line) ↔ used ∈ e.packages ∧ used ∉ reservedLocals :=
    fun e he => ServiceEntry.exists_qualifiers_blocks_iff (h.plain_entries hindex e he) used
  constructor
  · rintro ⟨b, hb, hline⟩
    obtain ⟨e, he, hb⟩ := List.mem_flatMap.mp hb
    exact ⟨e, he, ((hservice e he).mp ⟨b, hb, hline⟩).1⟩
  · rintro ⟨e, he, hused⟩
    have hlocal : used ∉ reservedLocals :=
      h.wellFormed_imports.alias_not_local ((h.mem_aliases_iff used).mpr ⟨e, he, hused⟩)
    obtain ⟨b, hb, hline⟩ := (hservice e he).mpr ⟨hused, hlocal⟩
    exact ⟨b, List.mem_flatMap.mpr ⟨e, he, hb⟩, hline⟩

/-- If the names of the source are on one line each, the text of the services has the aliases
    of the block as its qualifiers. -/
theorem mem_qualifiersIn_body_iff (h : p.Written env) (hindex : env.Indexed)
    (hnames : ∀ name ∈ p.draft.source.names, OneLine name) (used : String) :
    used ∈ qualifiersIn (Text.unlines p.document.bodyLines) ↔
      used ∈ p.document.imports.aliases := by
  have hlines := h.oneLine_bodyLines hindex hnames
  rw [qualifiersIn_unlines, List.flatMap_congr fun line hline =>
    qualifiersIn_of_oneLine (hlines line hline), List.mem_flatMap]
  exact h.exists_qualifiers_bodyLines_iff hindex used

end Publication.Written

/-! ### Published files -/

/-- The import block of a published file fits the services behind it. -/
structure Publication.Imported (env : Environment) (p : Publication) : Prop where
  /-- The block lists its paths in order, each once. -/
  ascending : (p.document.imports.sorted.map (·.1)).Pairwise (· < ·)
  /-- The paths are those of the framework and of the messages of other packages. -/
  paths : ∀ path, path ∈ p.document.imports.sorted.map (·.1) ↔
    path ∈ [Go.nexusPath, Go.workerPath, Go.workflowPath] ∨
      ∃ m ∈ env.messagesFor p.draft.source, m.goPackage.importPath = path ∧
        path ≠ p.draft.package.importPath
  /-- The types of the services are those that the source declares, in order. -/
  types : (p.document.services.flatMap fun s => s.operations.flatMap fun op =>
      [op.input, op.output]) = p.draft.source.typeCalls.map fun call =>
    (p.draft.mapper env).exprFor p.document.imports call.1
  /-- Each of them is a message, and is written as one. -/
  messages : ∀ call ∈ p.draft.source.typeCalls, ∃ m ∈ env.messagesFor p.draft.source,
    env.index.resolve? call.1 = some m ∧
      (p.draft.mapper env).exprFor p.document.imports call.1 =
        (p.draft.mapper env).exprOf p.document.imports m
  home : ∀ m ∈ env.messagesFor p.draft.source,
    m.goPackage.importPath = p.draft.package.importPath →
      ((p.draft.mapper env).exprOf p.document.imports m).text = m.goIdent
  foreign : ∀ m ∈ env.messagesFor p.draft.source,
    m.goPackage.importPath ≠ p.draft.package.importPath →
      ∃ used, (m.goPackage.importPath, used) ∈ p.document.imports.sorted ∧
        ((p.draft.mapper env).exprOf p.document.imports m).text = used ++ "." ++ m.goIdent
  /-- Messages that differ in package or name are written differently. -/
  distinct : ∀ m ∈ env.messagesFor p.draft.source, ∀ other ∈ env.messagesFor p.draft.source,
    ((p.draft.mapper env).exprOf p.document.imports m).text =
        ((p.draft.mapper env).exprOf p.document.imports other).text →
      m.goPackage.importPath = other.goPackage.importPath ∧ m.goIdent = other.goIdent
  /-- The text behind the block uses the aliases, and no other packages. -/
  qualifiers : (∀ name ∈ p.draft.source.names, OneLine name) → ∀ used,
    used ∈ qualifiersIn (Text.unlines p.document.bodyLines) ↔
      used ∈ p.document.imports.sorted.map (·.2)

namespace Publication.Written

variable {env : Environment} {p : Publication}

theorem types_services (h : p.Written env) :
    (p.document.services.flatMap fun s => s.operations.flatMap fun op => [op.input, op.output]) =
      p.draft.source.typeCalls.map fun call =>
        (p.draft.mapper env).exprFor p.document.imports call.1 := by
  rw [← types_entries, Environment.entries, List.flatMap_map, congrArg Document.services h.document,
    h.services, List.map_map, List.flatMap_map]
  refine List.flatMap_congr fun d _ => ?_
  rw [ServiceEntry.types, Service.entry, List.flatMap_map]
  simp only [Function.comp_apply, NamedService.bind, namedService, Service.named,
    List.flatMap_map]
  rfl

/-- What a message is written as tells its package and its name. -/
theorem eq_of_text_eq (h : p.Written env) (hindex : env.Indexed) {m other : MessageRef}
    (hm : m ∈ env.messagesFor p.draft.source) (hother : other ∈ env.messagesFor p.draft.source)
    (htext : ((p.draft.mapper env).exprOf p.document.imports m).text =
      ((p.draft.mapper env).exprOf p.document.imports other).text) :
    m.goPackage.importPath = other.goPackage.importPath ∧ m.goIdent = other.goIdent := by
  have hexpr := Go.TypeExpr.eq_of_text_eq (dotless_goIdent hindex hm)
    (dotless_goIdent hindex hother) htext
  obtain ⟨hqualifier, hident⟩ := Go.TypeExpr.mk.inj hexpr
  refine ⟨?_, hident⟩
  by_cases hhome : m.goPackage.importPath = p.draft.package.importPath
  · by_cases hotherHome : other.goPackage.importPath = p.draft.package.importPath
    · exact hhome.trans hotherHome.symm
    · obtain ⟨used, -, hused⟩ := h.exists_alias hother hotherHome
      rw [TypeMapper.exprOf_home (m := m) hhome, hused] at hexpr
      exact nomatch hexpr
  · obtain ⟨used, hentry, hused⟩ := h.exists_alias hm hhome
    by_cases hotherHome : other.goPackage.importPath = p.draft.package.importPath
    · rw [TypeMapper.exprOf_home (m := other) hotherHome, hused] at hexpr
      exact nomatch hexpr
    · obtain ⟨found, hfound, hfoundExpr⟩ := h.exists_alias hother hotherHome
      rw [hused, hfoundExpr] at hexpr
      obtain rfl := Option.some.inj (congrArg Go.TypeExpr.qualifier hexpr)
      exact h.wellFormed_imports.alias?_inj (h.wellFormed_imports.alias?_of_mem hentry)
        (h.wellFormed_imports.alias?_of_mem hfound)

theorem imported (h : p.Written env) (hindex : env.Indexed) : p.Imported env where
  ascending := h.wellFormed_imports.pairwise_sorted
  paths path := by
    rw [← h.paths_iff, Go.Imports.paths, List.mem_map, List.mem_map]
    simp only [Go.Imports.mem_sorted]
  types := h.types_services
  messages := h.exists_message
  home m _ hhome := by rw [TypeMapper.exprOf_home hhome, Go.TypeExpr.text]
  foreign m hm hforeign := by
    obtain ⟨used, hentry, hexpr⟩ := h.exists_alias hm hforeign
    exact ⟨used, Go.Imports.mem_sorted.mpr hentry, by rw [hexpr, Go.TypeExpr.text]⟩
  distinct m hm other hother := h.eq_of_text_eq hindex hm hother
  qualifiers hnames used := by
    rw [h.mem_qualifiersIn_body_iff hindex hnames, Go.Imports.aliases, List.mem_map, List.mem_map]
    simp only [Go.Imports.mem_sorted]

end Publication.Written

end Environment

namespace Document

/-- The lines in front of the import block. -/
def frontLines (d : Document) : List String :=
  ["// Code generated by " ++ generatorName ++ ". DO NOT EDIT.", "// versions:"]
    ++ d.versionLines
    ++ ["// source: " ++ d.source, "", "package " ++ d.packageName, ""]

/-- The import block: for each path a line with its alias and the path as a literal. -/
def importBlock (d : Document) : List String :=
  "import (" :: d.imports.sorted.map importLine ++ [")"]

theorem headerLines_eq (d : Document) : d.headerLines = d.frontLines ++ d.importBlock := by
  simp only [headerLines, frontLines, importBlock, List.append_assoc, List.cons_append,
    List.nil_append]

end Document

namespace Request

/-- A returned file imports the packages that it uses and no others, under aliases that it
    writes their messages with. -/
theorem imports_exact {request : Request} {response : Response}
    (hresponse : (generate request).outcome = .ok response) :
    (response.files = request.published.map fun p =>
        ⟨some p.draft.name, none, some p.document.render⟩) ∧
      ∀ p ∈ request.published, ∃ env, request.environment? = .ok env ∧
        p.draft.source.name ∈ request.targets ∧
        env.files.find? (·.name == p.draft.source.name) = some p.draft.source ∧
        p.document.render = Text.unlines (p.document.frontLines ++ p.document.importBlock)
          ++ Text.unlines p.document.bodyLines ∧
        p.Imported env := by
  refine ⟨files_eq_published hresponse, fun p hp => ?_⟩
  obtain ⟨env, henv, hindex, -, htarget, hwritten⟩ := written_of_mem_published hp
  refine ⟨env, henv, htarget, hwritten.source, ?_, hwritten.imported hindex⟩
  rw [← p.document.headerLines_eq]
  exact p.document.render_eq

/-- The orders file names the messages of another package by the alias `Order`. -/
theorem imports_exact_orders :
    ∃ response, (generate orders).outcome = .ok response ∧
      ∃ p ∈ orders.published, ("example.com/Order", "Order") ∈ p.document.imports.sorted ∧
        (∀ name ∈ p.draft.source.names, OneLine name) ∧
        ∃ env, orders.environment? = .ok env ∧ p.Imported env ∧
          "Order" ∈ qualifiersIn (Text.unlines p.document.bodyLines) := by
  have hany : orders.published.any fun p =>
      decide (("example.com/Order", "Order") ∈ p.document.imports.entries ∧
        ∀ name ∈ p.draft.source.names, OneLine name) := by
    decide +kernel
  obtain ⟨p, hp, hsource⟩ := List.any_eq_true.mp hany
  obtain ⟨hentry, hnames⟩ := of_decide_eq_true hsource
  have hentry := Go.Imports.mem_sorted.mpr hentry
  have houtcome := generate_outcome_of_isOk (by decide +kernel : orders.environment?.isOk)
  obtain ⟨env, henv, -, -, -, himported⟩ := (imports_exact houtcome).2 p hp
  exact ⟨_, houtcome, p, hp, hentry, hnames, env, henv, himported,
    (himported.qualifiers hnames "Order").mpr (List.mem_map_of_mem (f := (·.2)) hentry)⟩

/-- The name of the package has a line of Go in it. -/
def smuggled : Request where
  targets := ["shop.proto"]
  parameter := none
  compilerVersion := none
  files :=
    [sampleFile "shop.proto" "shop\nvar _ = other.Item //" "example.com/shop" ["Order"]
      [("Shop", [("Place", ".shop\nvar _ = other.Item //.Order")])]]

/-- The line leaves the comments that name the service, and uses what is not imported. -/
theorem smuggled_qualifier :
    ∃ response, (generate smuggled).outcome = .ok response ∧
      (response.files = smuggled.published.map fun p =>
        ⟨some p.draft.name, none, some p.document.render⟩) ∧
      ∃ p ∈ smuggled.published,
        p.document.render =
          Text.unlines (p.document.frontLines ++ p.document.importBlock)
            ++ Text.unlines p.document.bodyLines ∧
        "other" ∈ qualifiersIn (Text.unlines p.document.bodyLines) ∧
        "other" ∉ p.document.imports.sorted.map (·.2) := by
  have hany : smuggled.published.any fun p =>
      p.document.bodyLines.any (fun line => "other" ∈ qualifiersIn line)
        && "other" ∉ p.document.imports.aliases := by
    decide +kernel
  obtain ⟨p, hp, hsource⟩ := List.any_eq_true.mp hany
  simp only [Bool.and_eq_true, List.any_eq_true, decide_eq_true_eq] at hsource
  obtain ⟨⟨line, hline, hused⟩, hfree⟩ := hsource
  have houtcome := generate_outcome_of_isOk (by decide +kernel : smuggled.environment?.isOk)
  refine ⟨_, houtcome, files_eq_published houtcome, p, hp, ?_, ?_, ?_⟩
  · rw [← p.document.headerLines_eq]
    exact p.document.render_eq
  · rw [qualifiersIn_unlines]
    exact List.mem_flatMap.mpr ⟨line, hline, hused⟩
  · rw [Go.Imports.aliases, List.mem_map] at hfree
    simpa only [List.mem_map, Go.Imports.mem_sorted] using hfree

end Request

end GoBindings
