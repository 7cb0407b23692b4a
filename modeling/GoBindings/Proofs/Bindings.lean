/-
  GoBindings/Proofs/Bindings.lean
  ===============================
  **What a document is bound to.**

  The document of a draft has the services of the draft with types, and the types are what
  one run of the mapper over the methods gives, input before output (`bindServices_run`).
  Since drafts are functions of the declarations, a published file is determined by its
  source and by the import block that the run has left (`Publication.Written`).
-/
import GoBindings.Proofs.Aliases
import GoBindings.Proofs.CamelCase
import GoBindings.Proofs.Drafts
import GoBindings.Proofs.Keys

namespace GoBindings

open Text (OneLine)

theorem Descriptor.oneLine_of_qualify {scope name : String} (h : OneLine (qualify scope name)) :
    OneLine name := by
  unfold qualify at h
  split at h
  case isTrue => exact h
  case isFalse => exact (Text.oneLine_append.mp h).2

theorem Go.IsName.oneLine {s : String} (h : Go.IsName s) : OneLine s := by
  intro hmem
  have hnewline : Go.isNameChar '\n' = false := by decide +kernel
  exact absurd (h.chars _ hmem) (by rw [hnewline]; decide)

/-! ### Messages of an index -/

namespace TypeIndex

/-- Every message of an index belongs to the Go package of a file and has the Go name for its
    path. -/
theorem eq_messageRef_of_mem_build {files : List Descriptor.File} {settings : Settings}
    {m : MessageRef} (h : m ∈ (build files settings).messages) :
    ∃ f ∈ files, ∃ path, m = messageRef f (f.goPackageOf settings) path := by
  obtain ⟨f, hf, hm⟩ := List.mem_flatMap.mp (mem_of_mem_firstBy h)
  obtain ⟨declaration, -, href⟩ := List.mem_filterMap.mp hm
  cases declaration with
  | message path => exact ⟨f, hf, path, (Option.some.inj href).symm⟩
  | enumeration => exact nomatch href

theorem resolve?_eq_some {index : TypeIndex} {name : String} {m : MessageRef}
    (h : index.resolve? name = some m) :
    m ∈ index.messages ∧ m.fullName = (Text.dropStart? "." name).getD name := by
  have hname := List.find?_some h
  exact ⟨List.mem_of_find?_eq_some h, eq_of_beq hname⟩

end TypeIndex

/-! ### Types of a document -/

namespace NamedOperation

/-- The types that a method asks for: what it takes, then what it gives. -/
def typeCalls (service : String) (op : NamedOperation) : List (String × String) :=
  [(op.operation.inputType, service ++ "." ++ op.operation.methodName),
    (op.operation.outputType, service ++ "." ++ op.operation.methodName)]

/-- The operation with its types, each written as `typeOf` says. -/
def bind (typeOf : String → Go.TypeExpr) (op : NamedOperation) : BoundOperation :=
  ⟨op.operation.methodName, op.names, typeOf op.operation.inputType,
    typeOf op.operation.outputType⟩

end NamedOperation

def NamedService.bind (typeOf : String → Go.TypeExpr) (n : NamedService) : BoundService :=
  ⟨n.service, n.names, n.operations.map (·.bind typeOf)⟩

/-- The types that services ask for, in the order of asking. -/
def typeCalls (services : List NamedService) : List (String × String) :=
  services.flatMap fun n => n.operations.flatMap (·.typeCalls n.service.fullName)

/-- The types that the methods of a file take and give, each with the full name of the
    method. -/
def Descriptor.File.typeCalls (f : Descriptor.File) : List (String × String) :=
  f.services.flatMap fun s => s.methods.flatMap fun m =>
    [(m.inputType, s.fullName f ++ "." ++ m.name), (m.outputType, s.fullName f ++ "." ++ m.name)]

/-- The lines behind the import block. -/
def Document.bodyLines (d : Document) : List String := d.services.flatMap (serviceLines d.framework)

theorem Document.render_eq_unlines (d : Document) : d.render = Text.unlines d.lines := rfl

theorem Document.render_eq (d : Document) :
    d.render = Text.unlines d.headerLines ++ Text.unlines d.bodyLines :=
  Text.unlines_append d.headerLines d.bodyLines

namespace Environment

/-- The messages that the methods of a file take and give. -/
def messagesFor (env : Environment) (f : Descriptor.File) : List MessageRef :=
  f.typeCalls.filterMap fun call => env.index.resolve? call.1

theorem typeCalls_namedService (env : Environment) (f : Descriptor.File) :
    typeCalls (f.services.map (env.namedService f)) = f.typeCalls := by
  simp only [typeCalls, Descriptor.File.typeCalls, List.flatMap_map]
  refine List.flatMap_congr fun s _ => ?_
  simp only [namedService, Service.named, Descriptor.Service.toService, List.flatMap_map]
  rfl

/-- Whatever the block becomes, the operations are written with the aliases that it has in the
    end. -/
theorem bindOperations_run {mapper : TypeMapper} {s : Service} {i after : Go.Imports}
    {named : List NamedOperation} {bound : List BoundOperation}
    (h : (bindOperations mapper s i named).outcome = .ok (bound, after)) :
    ∃ mapped, (mapper.mapAll i (named.flatMap (·.typeCalls s.fullName))).outcome =
        .ok (mapped, after) ∧
      ∀ last, after.Keeps last → bound = named.map (·.bind (mapper.exprFor last)) := by
  induction named generalizing i bound with
  | nil =>
    obtain ⟨rfl, rfl⟩ := Prod.mk.inj (Except.ok.inj h)
    exact ⟨[], rfl, fun last _ => rfl⟩
  | cons op rest ih =>
    obtain ⟨⟨input, mid⟩, hinput, h⟩ := Traced.outcome_bind_eq_ok.mp h
    obtain ⟨⟨output, next⟩, houtput, h⟩ := Traced.outcome_bind_eq_ok.mp h
    obtain ⟨⟨more, last⟩, hmore, h⟩ := Traced.outcome_bind_eq_ok.mp h
    obtain ⟨rfl, rfl⟩ := Prod.mk.inj (Except.ok.inj h)
    obtain ⟨mapped, hmapped, hbound⟩ := ih hmore
    refine ⟨input :: output :: mapped, ?_, ?_⟩
    · exact TypeMapper.mapAll_cons_ok hinput (TypeMapper.mapAll_cons_ok houtput hmapped)
    · -- both types were written with earlier blocks, the aliases of which `last` has kept
      intro last hlast
      have hnext := (TypeMapper.extends_mapAll hmapped).2.kept.trans hlast
      have hmid := (TypeMapper.extends_map houtput).2.kept.trans hnext
      rw [List.map_cons, hbound last hlast, TypeMapper.expr_of_map hinput hmid,
        TypeMapper.expr_of_map houtput hnext]
      rfl

/-- Binding services is one run of the mapper over their methods. -/
theorem bindServices_run {mapper : TypeMapper} {i after : Go.Imports}
    {named : List NamedService} {bound : List BoundService}
    (h : (bindServices mapper i named).outcome = .ok (bound, after)) :
    ∃ mapped, (mapper.mapAll i (typeCalls named)).outcome = .ok (mapped, after) ∧
      ∀ last, after.Keeps last → bound = named.map (·.bind (mapper.exprFor last)) := by
  induction named generalizing i bound with
  | nil =>
    obtain ⟨rfl, rfl⟩ := Prod.mk.inj (Except.ok.inj h)
    exact ⟨[], rfl, fun last _ => rfl⟩
  | cons n rest ih =>
    obtain ⟨⟨operations, mid⟩, hoperations, h⟩ := Traced.outcome_bind_eq_ok.mp h
    obtain ⟨-, -, h⟩ := Traced.outcome_bind_eq_ok.mp h
    obtain ⟨⟨more, last⟩, hmore, h⟩ := Traced.outcome_bind_eq_ok.mp h
    obtain ⟨rfl, rfl⟩ := Prod.mk.inj (Except.ok.inj h)
    obtain ⟨mapped, hmapped, hfirst⟩ := bindOperations_run hoperations
    obtain ⟨others, hothers, hrest⟩ := ih hmore
    refine ⟨mapped ++ others, TypeMapper.mapAll_append_ok hmapped hothers, ?_⟩
    intro last hlast
    have hmid := (TypeMapper.extends_mapAll hothers).2.kept.trans hlast
    rw [List.map_cons, hfirst last hmid, hrest last hlast]
    rfl

/-- What maps the types of a draft. -/
def Draft.mapper (env : Environment) (d : Draft) : TypeMapper := ⟨env.index, d.package⟩

/-- A document is its draft, with the types written as its own import block says. -/
theorem document_eq {env : Environment} {d : Draft} {document : Document}
    (h : (d.document env).outcome = .ok document) :
    ∃ mapped, ((d.mapper env).mapAll Go.Imports.framework (typeCalls d.services)).outcome =
        .ok (mapped, document.imports) ∧
      document = ⟨d.source.name, d.package.name, generatorVersion, env.compilerVersion,
        document.imports,
        d.services.map (·.bind ((d.mapper env).exprFor document.imports))⟩ := by
  obtain ⟨⟨bound, imports⟩, hbound, h⟩ := Traced.outcome_bind_eq_ok.mp h
  obtain ⟨mapped, hmapped, hservices⟩ := bindServices_run hbound
  rw [← Except.ok.inj h]
  refine ⟨mapped, hmapped, ?_⟩
  dsimp only
  rw [hservices imports (.refl imports)]
  rfl

theorem document_ok {env : Environment} {d : Draft} {document : Document}
    (h : (d.document env).outcome = .ok document) :
    List.Forall₂ Binds document.services d.services := by
  obtain ⟨-, -, hdocument⟩ := document_eq h
  rw [congrArg Document.services hdocument]
  refine List.forall₂_map_left_iff.mpr (List.forall₂_same.mpr fun n _ => ⟨rfl, rfl, ?_⟩)
  rw [NamedService.bind, List.map_map]
  rfl

/-- The index of the environment is that of its files. -/
def Indexed (env : Environment) : Prop := env.index = TypeIndex.build env.files env.settings

/-- The document is its source with the names and types that belong to it. The import block
    is what mapping these types has made of the framework's. -/
structure Publication.Written (env : Environment) (p : Publication) : Prop where
  source : env.files.find? (·.name == p.draft.source.name) = some p.draft.source
  services : p.draft.services = p.draft.source.services.map (env.namedService p.draft.source)
  nonempty : p.draft.source.services ≠ []
  methods : ∀ s ∈ p.draft.source.services, (s.methods.map fun m => Go.camelCase m.name).Nodup
  mapped : ∃ mapped,
    ((p.draft.mapper env).mapAll Go.Imports.framework p.draft.source.typeCalls).outcome =
        .ok (mapped, p.document.imports) ∧
      mapped.map (·.message) = env.messagesFor p.draft.source ∧
      (p.draft.mapper env).Extends Go.Imports.framework mapped p.document.imports
  document : p.document =
    ⟨p.draft.source.name, p.draft.package.name, generatorVersion, env.compilerVersion,
      p.document.imports,
      p.draft.services.map (·.bind ((p.draft.mapper env).exprFor p.document.imports))⟩

theorem written_of_publication? {env : Environment} {target : String} {p : Publication}
    (h : env.publication? target = some p) : p.draft.source.name = target ∧ p.Written env := by
  obtain ⟨hfind, hdraft, hdocument⟩ := publication?_ok h
  have htarget : p.draft.source.name = target := by simpa using List.find?_some hfind
  obtain ⟨hservices, hnonempty, hmethods⟩ := draft_services hdraft
  obtain ⟨mapped, hmapped, hdocument⟩ := document_eq hdocument
  rw [hservices, typeCalls_namedService] at hmapped
  exact ⟨htarget, htarget ▸ hfind, hservices, hnonempty, hmethods,
    ⟨mapped, hmapped, TypeMapper.messages_of_mapAll hmapped,
      (TypeMapper.extends_mapAll hmapped).2⟩, hdocument⟩

namespace Publication.Written

variable {env : Environment} {p : Publication}

theorem isName_of_mem_messagesFor (hindex : env.Indexed) {m : MessageRef}
    (hm : m ∈ env.messagesFor p.draft.source) : Go.IsName m.goPackage.name := by
  obtain ⟨call, -, hresolve⟩ := List.mem_filterMap.mp hm
  have hmem := (TypeIndex.resolve?_eq_some hresolve).1
  rw [hindex] at hmem
  obtain ⟨f, -, path, rfl⟩ := TypeIndex.eq_messageRef_of_mem_build hmem
  exact Go.isName_goPackageOf f env.settings

theorem wellFormed_imports (h : p.Written env) : p.document.imports.WellFormed := by
  obtain ⟨mapped, -, -, hextends⟩ := h.mapped
  exact hextends.wellFormed Go.Imports.wellFormed_framework

theorem isName_of_mem_aliases (h : p.Written env) (hindex : env.Indexed) {used : String}
    (hused : used ∈ p.document.imports.aliases) : Go.IsName used := by
  obtain ⟨mapped, -, hmessages, hextends⟩ := h.mapped
  obtain ⟨entry, hentry, rfl⟩ := List.mem_map.mp hused
  rcases hextends.entries entry hentry with hframework | ⟨m, hm, -, -, n, halias⟩
  · rw [Go.Imports.entries_framework] at hframework
    have husual : ∀ entry ∈ [(Go.nexusPath, "nexus"), (Go.workerPath, "worker"),
        (Go.workflowPath, "workflow")], entry.2 ≠ "" ∧ entry.2.toList.all Char.isAlphanum := by
      decide
    obtain ⟨hne, hchars⟩ := husual entry hframework
    exact ⟨hne, fun c hc => Go.isNameChar_of_isAlphanum (List.all_eq_true.mp hchars c hc)⟩
  · rw [halias]
    have hmem : m.message ∈ env.messagesFor p.draft.source :=
      hmessages ▸ List.mem_map_of_mem hm
    exact Go.Imports.isName_candidate (isName_of_mem_messagesFor hindex hmem) n

/-- Whatever is mapped, the framework keeps its usual aliases. -/
theorem framework_eq (h : p.Written env) :
    p.document.framework = ⟨"nexus", "worker", "workflow"⟩ := by
  obtain ⟨mapped, -, -, hextends⟩ := h.mapped
  have hnexus := hextends.kept Go.nexusPath "nexus" (by decide +kernel)
  have hworker := hextends.kept Go.workerPath "worker" (by decide +kernel)
  have hworkflow := hextends.kept Go.workflowPath "workflow" (by decide +kernel)
  rw [Document.framework, hnexus, hworker, hworkflow]
  rfl

/-- A type is written on one line if its name is on one. -/
theorem oneLine_exprFor (h : p.Written env) (hindex : env.Indexed) {typeName : String}
    (hname : OneLine typeName) :
    OneLine ((p.draft.mapper env).exprFor p.document.imports typeName).text := by
  unfold TypeMapper.exprFor
  cases hresolve : (p.draft.mapper env).index.resolve? typeName with
  | none => exact Text.oneLine_ofList rfl
  | some m =>
    obtain ⟨hmem, hfull⟩ := TypeIndex.resolve?_eq_some hresolve
    change m ∈ env.index.messages at hmem
    rw [hindex] at hmem
    obtain ⟨f, -, path, rfl⟩ := TypeIndex.eq_messageRef_of_mem_build hmem
    have hqualified : OneLine (Descriptor.qualify f.package path) := by
      change Descriptor.qualify f.package path = _ at hfull
      rw [hfull]
      cases hdrop : Text.dropStart? "." typeName with
      | none => exact hname
      | some rest =>
        rw [Text.dropStart?_eq_some_iff.mp hdrop, Text.oneLine_append] at hname
        exact hname.2
    have hident : OneLine (Go.camelCase path) :=
      Go.oneLine_camelCase (Descriptor.oneLine_of_qualify hqualified)
    rw [Option.map_some, Option.getD_some, Go.TypeExpr.text]
    split
    case h_1 used hused =>
      have halias : used ∈ p.document.imports.aliases := by
        simp only [TypeMapper.exprOf, Option.ite_none_left_eq_some] at hused
        exact List.mem_map_of_mem (Go.Imports.mem_entries_of_alias? hused.2)
      simp only [Text.oneLine_append]
      exact ⟨⟨(h.isName_of_mem_aliases hindex halias).oneLine, Text.oneLine_ofList rfl⟩, hident⟩
    case h_2 => exact hident

end Publication.Written

end Environment

namespace Request

theorem indexed_of_environment? {request : Request} {env : Environment}
    (h : request.environment? = .ok env) : env.Indexed := by
  obtain ⟨settings, files, -, -, rfl⟩ := environment?_eq_ok_iff.mp h
  rfl

/-- What a request publishes is written for one of its targets, in its environment. -/
theorem written_of_mem_published {request : Request} {p : Environment.Publication}
    (hp : p ∈ request.published) :
    ∃ env, request.environment? = .ok env ∧ env.Indexed ∧
      p ∈ env.published Registry.empty request.targets ∧
      p.draft.source.name ∈ request.targets ∧ p.Written env := by
  unfold published at hp
  cases henv : request.environment? with
  | error fault =>
    rw [henv] at hp
    exact absurd hp List.not_mem_nil
  | ok env =>
    rw [henv] at hp
    obtain ⟨target, htarget, hpublication⟩ := Environment.exists_of_mem_published hp
    obtain ⟨rfl, hwritten⟩ := Environment.written_of_publication? hpublication
    exact ⟨env, rfl, indexed_of_environment? henv, hp, htarget, hwritten⟩

end Request

end GoBindings
