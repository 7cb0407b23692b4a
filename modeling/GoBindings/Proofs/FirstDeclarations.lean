/-
  GoBindings/Proofs/FirstDeclarations.lean
  ========================================
  **The first declaration of a name counts.**

  The type index is made by going through the files, and through each file in the order of
  places, and by keeping the first message and the first enum of each full name. So what it has
  for a name belongs to the declaration with the least place among those of that name and kind
  (`First`), where the number of the file comes first.

  Messages and enums are kept apart but in the same way. Both are a matter of what is made of a
  site (`MadeOf`), and what is found among what is made is what is made of a first site
  (`MadeOf.find?_eq_some_iff`).
-/
import GoBindings.Proofs.Keys
import GoBindings.Proofs.PackageClauses
import GoBindings.Proofs.RuntimeNames
import GoBindings.Proofs.Sites
import Mathlib.Data.Finset.Card

namespace GoBindings

open Descriptor (Declaration File Site Enum linePath pathUnder qualify)

/-! ### The least place -/

/-- In a list with ascending places the first element is the one with the least place. -/
theorem find?_eq_some_iff_least {α : Type} {place : α → List Nat} {p : α → Bool} {xs : List α}
    {x : α} (h : xs.Pairwise (place · < place ·)) :
    xs.find? p = some x ↔ x ∈ xs ∧ p x ∧ ∀ y ∈ xs, p y → place x ≤ place y := by
  have hleast : ∀ x, xs.find? p = some x → ∀ y ∈ xs, p y → place x ≤ place y := by
    intro x hx y hy hpy
    obtain ⟨-, before, after, rfl, hbefore⟩ := List.find?_eq_some_iff_append.mp hx
    obtain ⟨-, hafter, -⟩ := List.pairwise_append.mp h
    rcases List.mem_append.mp hy with hy | hy
    · have hnot := hbefore y hy
      rw [hpy] at hnot
      exact nomatch hnot
    · rcases List.mem_cons.mp hy with rfl | hy
      · exact le_rfl
      · exact le_of_lt ((List.pairwise_cons.mp hafter).1 y hy)
  constructor
  · intro hx
    exact ⟨List.mem_of_find?_eq_some hx, List.find?_some hx, hleast x hx⟩
  · rintro ⟨hx, hpx, hle⟩
    cases hfind : xs.find? p with
    | none => exact absurd hpx (List.find?_eq_none.mp hfind x hx)
    | some y =>
      have hy := List.mem_of_find?_eq_some hfind
      have hplace := le_antisymm (hleast y hfind x hx hpx) (hle y hy (List.find?_some hfind))
      have hdistinct : (xs.map place).Nodup := List.pairwise_map.mpr (h.imp fun hab => ne_of_lt hab)
      rw [List.inj_on_of_nodup_map hdistinct hy hx hplace]

namespace Descriptor

/-! ### Declarations of many files -/

variable {files : List File} {f : File} {s : Site}

/-- The full name of what is declared at a site of a file. -/
def Site.fullName (f : File) (s : Site) : String := qualify f.package s.path

/-- One of the files declares a message or enum that has a Go type. The place begins with the
    number of the file. -/
inductive Declared (files : List File) : File → Site → Prop
  | intro {n : Nat} {f : File} {s : Site} (hf : files[n]? = some f)
      (hs : s.Within f.messages f.enums) (htype : s.HasType) : Declared files f (s.under n)

/-- Of the messages, or of the enums, of one full name this is the first. -/
structure First (files : List File) (f : File) (s : Site) : Prop where
  declared : Declared files f s
  least : ∀ g t, Declared files g t → t.enum?.isSome = s.enum?.isSome →
    t.fullName g = s.fullName f → s.place ≤ t.place

/-- The sites of files one after the other. -/
def visits (files : List File) : List (File × Site) :=
  numbered (fun n v => (v.1, v.2.under n)) (fun f => f.sites.map fun s => (f, s)) 0 files

theorem mem_visits_iff : (f, s) ∈ visits files ↔ Declared files f s := by
  rw [visits, mem_numbered_iff]
  constructor
  · rintro ⟨n, g, v, hg, hv, heq⟩
    obtain ⟨t, ht, rfl⟩ := List.mem_map.mp hv
    obtain ⟨rfl, rfl⟩ := Prod.mk.inj heq
    obtain ⟨hwithin, htype⟩ := mem_sitesIn_iff.mp ht
    rw [Nat.zero_add]
    exact .intro hg hwithin htype
  · rintro ⟨hf, hs, htype⟩
    refine ⟨_, f, _, hf, List.mem_map_of_mem (mem_sitesIn_iff.mpr ⟨hs, htype⟩), ?_⟩
    rw [Nat.zero_add]

theorem ascending_visits (files : List File) :
    (visits files).Pairwise (·.2.place < ·.2.place) := by
  refine ascending_numbered (fun _ _ => rfl) ?_
  intro f _
  rw [List.pairwise_map]
  exact ascending_sitesIn f.messages f.enums

/-! ### What is made of declarations -/

/-- Something is made of each site of one kind, whatever its place, and has the full name of the
    site as its key. -/
structure MadeOf {ρ : Type} (isEnum : Bool) (key : ρ → String) (make : File → Site → Option ρ) :
    Prop where
  under : ∀ f n s, make f (s.under n) = make f s
  kind : ∀ f s, (make f s).isSome ↔ s.enum?.isSome = isEnum
  key : ∀ f s r, make f s = some r → key r = s.fullName f

namespace MadeOf

variable {ρ : Type} {isEnum : Bool} {key : ρ → String} {make : File → Site → Option ρ}
  {k : String} {r : ρ}

theorem flatMap_sites (h : MadeOf isEnum key make) (files : List File) :
    (files.flatMap fun f => f.sites.filterMap (make f)) =
      (visits files).filterMap fun v => make v.1 v.2 := by
  rw [visits, filterMap_numbered fun n v => h.under v.1 n v.2]
  refine List.flatMap_congr fun f _ => ?_
  rw [List.filterMap_map]
  rfl

theorem any_key_iff (h : MadeOf isEnum key make) (f : File) (s : Site) :
    (make f s).any (key · == k) ↔ s.enum?.isSome = isEnum ∧ s.fullName f = k := by
  rw [← h.kind f s]
  cases hmade : make f s with
  | none => simp
  | some r => simp [h.key f s r hmade]

/-- What is found for a name is made of its first declaration. -/
theorem find?_eq_some_iff (h : MadeOf isEnum key make) :
    (files.flatMap fun f => f.sites.filterMap (make f)).find? (key · == k) = some r ↔
      ∃ f s, First files f s ∧ s.fullName f = k ∧ make f s = some r := by
  rw [h.flatMap_sites, List.find?_filterMap, Option.bind_eq_some_iff]
  simp only [find?_eq_some_iff_least (ascending_visits files), Prod.exists, Prod.forall,
    mem_visits_iff, h.any_key_iff]
  constructor
  · rintro ⟨f, s, ⟨hs, ⟨hkind, hname⟩, hleast⟩, hmade⟩
    refine ⟨f, s, ⟨hs, ?_⟩, hname, hmade⟩
    intro g t ht hsame hnamed
    exact hleast g t ht ⟨hsame.trans hkind, hnamed.trans hname⟩
  · rintro ⟨f, s, hfirst, hname, hmade⟩
    have hkind : s.enum?.isSome = isEnum := (h.kind f s).mp (by rw [hmade]; rfl)
    refine ⟨f, s, ⟨hfirst.declared, ⟨hkind, hname⟩, ?_⟩, hmade⟩
    rintro g t ht ⟨hkind', hname'⟩
    exact hfirst.least g t ht (hkind'.trans hkind.symm) (hname'.trans hname.symm)

/-- What is kept is what is made of a first declaration. -/
theorem mem_firstBy_iff (h : MadeOf isEnum key make) :
    r ∈ firstBy key (files.flatMap fun f => f.sites.filterMap (make f)) ↔
      ∃ f s, First files f s ∧ make f s = some r := by
  rw [GoBindings.mem_firstBy_iff, h.find?_eq_some_iff]
  constructor
  · rintro ⟨f, s, hfirst, -, hmade⟩
    exact ⟨f, s, hfirst, hmade⟩
  · rintro ⟨f, s, hfirst, hmade⟩
    exact ⟨f, s, hfirst, (h.key f s r hmade).symm, hmade⟩

theorem mem_keys_iff (h : MadeOf isEnum key make) :
    k ∈ (files.flatMap fun f => f.sites.filterMap (make f)).map key ↔
      ∃ f s, Declared files f s ∧ s.enum?.isSome = isEnum ∧ s.fullName f = k := by
  rw [h.flatMap_sites]
  simp only [List.mem_map, List.mem_filterMap, Prod.exists, mem_visits_iff]
  constructor
  · rintro ⟨r, ⟨f, s, hs, hmade⟩, rfl⟩
    exact ⟨f, s, hs, (h.kind f s).mp (by rw [hmade]; rfl), (h.key f s r hmade).symm⟩
  · rintro ⟨f, s, hs, hkind, rfl⟩
    obtain ⟨r, hmade⟩ := Option.isSome_iff_exists.mp ((h.kind f s).mpr hkind)
    exact ⟨r, ⟨f, s, hs, hmade⟩, h.key f s r hmade⟩

end MadeOf

namespace Site

/-- The type of a message that is declared at a site. -/
def messageRef? (settings : Settings) (f : File) (s : Site) : Option MessageRef :=
  match s.enum? with
  | none => some ⟨s.fullName f, f.package, f.name, f.goPackageOf settings, Go.camelCase s.path⟩
  | some _ => none

/-- What the names of an enum's constants begin with: the Go name of the message that holds the
    enum, and of the enum itself if none does. -/
def scope (s : Site) : String :=
  if s.line = [] then Go.camelCase s.path
  else Go.camelCase (".".intercalate (s.line.map (·.name)))

theorem scope_eq (s : Site) :
    s.scope = ((linePath s.line).map Go.camelCase).getD (Go.camelCase s.path) := by
  unfold scope linePath
  by_cases hline : s.line = []
  · rw [if_pos hline, if_pos hline]
    rfl
  · rw [if_neg hline, if_neg hline]
    rfl

/-- An enum that is declared at a site, with its Go identifiers. -/
def enumRef? (settings : Settings) (f : File) (s : Site) : Option EnumRef :=
  s.enum?.map fun e =>
    ⟨s.fullName f, f.goPackageOf settings,
      Go.camelCase s.path :: (Go.camelCase s.path ++ "_name") :: (Go.camelCase s.path ++ "_value")
        :: e.values.map fun v => s.scope ++ "_" ++ v.name⟩

theorem messageRef?_eq_some_iff {settings : Settings} {ref : MessageRef} :
    s.messageRef? settings f = some ref ↔ s.enum? = none ∧
      ref = ⟨s.fullName f, f.package, f.name, f.goPackageOf settings, Go.camelCase s.path⟩ := by
  rw [messageRef?]
  cases s.enum? with
  | none => simp [eq_comm]
  | some e => simp

theorem enumRef?_eq_some_iff {settings : Settings} {ref : EnumRef} :
    s.enumRef? settings f = some ref ↔ ∃ e, s.enum? = some e ∧
      ref = ⟨s.fullName f, f.goPackageOf settings,
        Go.camelCase s.path :: (Go.camelCase s.path ++ "_name")
          :: (Go.camelCase s.path ++ "_value")
          :: e.values.map fun v => s.scope ++ "_" ++ v.name⟩ := by
  rw [enumRef?, Option.map_eq_some_iff]
  exact exists_congr fun e => and_congr_right fun _ => eq_comm

theorem madeOf_messageRef? (settings : Settings) :
    MadeOf false (·.fullName) (messageRef? settings) where
  under _ _ _ := rfl
  kind f s := by
    rw [messageRef?]
    cases s.enum? <;> simp
  key f s r hr := by
    obtain ⟨-, rfl⟩ := messageRef?_eq_some_iff.mp hr
    rfl

theorem madeOf_enumRef? (settings : Settings) :
    MadeOf true (·.fullName) (enumRef? settings) where
  under _ _ _ := rfl
  kind f s := by rw [enumRef?, Option.isSome_map]
  key f s r hr := by
    obtain ⟨e, -, rfl⟩ := enumRef?_eq_some_iff.mp hr
    rfl

/-- Nothing but an enum is outside of all messages. -/
theorem Within.line_ne_nil {ms : List Descriptor.Message} {es : List Enum}
    (h : s.Within ms es) (henum : s.enum? = none) : s.line ≠ [] := by
  cases h with
  | message _ => exact List.cons_ne_nil _ _
  | enumeration _ => exact nomatch henum
  | inside _ _ => exact List.cons_ne_nil _ _

end Site

end Descriptor

namespace TypeIndex

open Descriptor

variable {files : List File} {settings : Settings} {name : String}

/-! ### What one file declares -/

theorem messagesOf_eq (settings : Settings) (f : File) :
    messagesOf settings f = f.sites.filterMap (Site.messageRef? settings f) := by
  -- of a declaration only its view counts, and the views are those of the sites
  have hview : messagesOf settings f = ((declarations f).map Declaration.view).filterMap fun v =>
      if v.2.isSome then none else v.1.map (messageRef f (f.goPackageOf settings)) := by
    rw [messagesOf, List.filterMap_map]
    refine List.filterMap_congr fun d _ => ?_
    cases d <;> rfl
  rw [hview, declarations, File.view_declarations, List.filterMap_map]
  refine List.filterMap_congr fun s hs => ?_
  have hwithin := (mem_sitesIn_iff.mp hs).1
  obtain ⟨place, line, enum?⟩ := s
  cases enum? with
  | none =>
    have hline : linePath line = some (".".intercalate (line.map (·.name))) :=
      if_neg (hwithin.line_ne_nil rfl)
    simp [Site.view, Site.messageRef?, Site.fullName, Site.path, hline, messageRef]
  | some e => simp [Site.view, Site.messageRef?]

theorem enumsOf_eq (settings : Settings) (f : File) :
    enumsOf settings f = f.sites.filterMap (Site.enumRef? settings f) := by
  have hview : enumsOf settings f = ((declarations f).map Declaration.view).filterMap fun v =>
      v.2.map (enumRef f (f.goPackageOf settings) v.1) := by
    rw [enumsOf, List.filterMap_map]
    refine List.filterMap_congr fun d _ => ?_
    cases d <;> rfl
  rw [hview, declarations, File.view_declarations, List.filterMap_map]
  refine List.filterMap_congr fun s _ => ?_
  obtain ⟨place, line, enum?⟩ := s
  refine Option.map_congr fun e he => ?_
  obtain rfl : enum? = some e := he
  have hpath : pathUnder (linePath line) e.name = Site.path ⟨place, line, some e⟩ :=
    pathUnder_linePath line e.name
  simp only [Site.view, List.nil_append, enumRef, enumIdents, hpath, Site.scope_eq]
  rfl

/-! ### The index -/

/-- A text that is looked up stands for a full name: one dot may stand in front. -/
def Spells (name full : String) : Prop :=
  name = "." ++ full ∨ name = full ∧ ∀ rest, name ≠ "." ++ rest

theorem spells_iff {full : String} :
    Spells name full ↔ full = (Text.dropStart? "." name).getD name := by
  cases hdrop : Text.dropStart? "." name with
  | some rest =>
    obtain rfl := Text.dropStart?_eq_some_iff.mp hdrop
    rw [Option.getD_some, Spells]
    constructor
    · rintro (hname | ⟨-, hnone⟩)
      · exact (String.append_right_inj _).mp hname.symm
      · exact absurd rfl (hnone rest)
    · rintro rfl
      exact .inl rfl
  | none =>
    have hnone := Text.dropStart?_eq_none_iff.mp hdrop
    rw [Option.getD_none, Spells]
    constructor
    · rintro (hname | ⟨hname, -⟩)
      · exact absurd hname (hnone full)
      · exact hname.symm
    · rintro rfl
      exact .inr ⟨rfl, hnone⟩

theorem build_messages (files : List File) (settings : Settings) :
    (build files settings).messages = firstBy (·.fullName)
      (files.flatMap fun f => f.sites.filterMap (Site.messageRef? settings f)) := by
  rw [build, funext (messagesOf_eq settings)]

theorem build_enums (files : List File) (settings : Settings) :
    (build files settings).enums = firstBy (·.fullName)
      (files.flatMap fun f => f.sites.filterMap (Site.enumRef? settings f)) := by
  rw [build, funext (enumsOf_eq settings)]

theorem resolve?_build_iff {ref : MessageRef} :
    (build files settings).resolve? name = some ref ↔
      ∃ f s, First files f s ∧ s.enum? = none ∧ Spells name (s.fullName f) ∧
        ref = ⟨s.fullName f, f.package, f.name, f.goPackageOf settings, Go.camelCase s.path⟩ := by
  rw [resolve?, build_messages, find?_firstBy, (Site.madeOf_messageRef? settings).find?_eq_some_iff]
  simp only [Site.messageRef?_eq_some_iff, spells_iff, and_left_comm]

theorem isSome_resolve?_build_iff :
    ((build files settings).resolve? name).isSome ↔
      ∃ f s, Declared files f s ∧ s.enum? = none ∧ Spells name (s.fullName f) := by
  rw [resolve?, build_messages, find?_firstBy, List.find?_isSome]
  simp only [beq_iff_eq, spells_iff]
  rw [← List.mem_map, (Site.madeOf_messageRef? settings).mem_keys_iff]
  simp only [Option.isSome_eq_false_iff, Option.isNone_iff_eq_none]

theorem size_build (files : List File) (settings : Settings) :
    ∃ names : Finset String, (∀ full, full ∈ names ↔
        ∃ f s, Declared files f s ∧ s.enum? = none ∧ s.fullName f = full) ∧
      (build files settings).size = names.card := by
  refine ⟨((build files settings).messages.map (·.fullName)).toFinset, ?_, ?_⟩
  · intro full
    rw [List.mem_toFinset, build_messages, mem_keys_firstBy_iff,
      (Site.madeOf_messageRef? settings).mem_keys_iff]
    simp only [Option.isSome_eq_false_iff, Option.isNone_iff_eq_none]
  · rw [build_messages, List.toFinset_card_of_nodup (nodup_keys_firstBy _ _), List.length_map, size,
      build_messages]

theorem mem_messages_build_iff {ref : MessageRef} : ref ∈ (build files settings).messages ↔
    ∃ f s, First files f s ∧ s.messageRef? settings f = some ref := by
  rw [build_messages]
  exact (Site.madeOf_messageRef? settings).mem_firstBy_iff

theorem mem_enums_build_iff {ref : EnumRef} : ref ∈ (build files settings).enums ↔
    ∃ f s, First files f s ∧ s.enumRef? settings f = some ref := by
  rw [build_enums]
  exact (Site.madeOf_enumRef? settings).mem_firstBy_iff

theorem mem_enumsAt_build_iff {path : String} {ref : EnumRef} :
    ref ∈ (build files settings).enumsAt path ↔
      ∃ f s e, First files f s ∧ s.enum? = some e ∧ (f.goPackageOf settings).importPath = path ∧
        ref = ⟨s.fullName f, f.goPackageOf settings,
          Go.camelCase s.path :: (Go.camelCase s.path ++ "_name")
            :: (Go.camelCase s.path ++ "_value")
            :: e.values.map fun v => s.scope ++ "_" ++ v.name⟩ := by
  rw [enumsAt, List.mem_mergeSort, List.mem_filter, beq_iff_eq, mem_enums_build_iff]
  simp only [Site.enumRef?_eq_some_iff]
  constructor
  · rintro ⟨⟨f, s, hfirst, e, he, rfl⟩, hpath⟩
    exact ⟨f, s, e, hfirst, he, hpath, rfl⟩
  · rintro ⟨f, s, e, hfirst, he, hpath, rfl⟩
    exact ⟨⟨f, s, hfirst, e, he, rfl⟩, hpath⟩

theorem ascending_enumsAt_build (files : List File) (settings : Settings) (path : String) :
    (((build files settings).enumsAt path).map (·.fullName)).Pairwise (· < ·) := by
  have hnodup : ((build files settings).enums.map (·.fullName)).Nodup := by
    rw [build_enums]
    exact nodup_keys_firstBy _ _
  exact ascending_mergeSort_key (hnodup.sublist (List.filter_sublist.map _))

/-- What the index of files answers. A name finds a message, never an enum: one is found if some
    message with a Go type has the name, and it is the first of them. As many are counted as there
    are names. A path lists the enums of its Go package, each where it is declared first and in the
    order of the names, with all that is generated for it. A file name finds the package of the
    first file that has it. -/
theorem build_exact (files : List File) (settings : Settings) :
    (∀ name ref, (build files settings).resolve? name = some ref ↔
      ∃ f s, First files f s ∧ s.enum? = none ∧ Spells name (s.fullName f) ∧
        ref = ⟨s.fullName f, f.package, f.name, f.goPackageOf settings, Go.camelCase s.path⟩) ∧
    (∀ name, ((build files settings).resolve? name).isSome ↔
      ∃ f s, Declared files f s ∧ s.enum? = none ∧ Spells name (s.fullName f)) ∧
    (∃ names : Finset String, (∀ full, full ∈ names ↔
        ∃ f s, Declared files f s ∧ s.enum? = none ∧ s.fullName f = full) ∧
      (build files settings).size = names.card) ∧
    (∀ path ref, ref ∈ (build files settings).enumsAt path ↔
      ∃ f s e, First files f s ∧ s.enum? = some e ∧ (f.goPackageOf settings).importPath = path ∧
        ref = ⟨s.fullName f, f.goPackageOf settings,
          Go.camelCase s.path :: (Go.camelCase s.path ++ "_name")
            :: (Go.camelCase s.path ++ "_value")
            :: e.values.map fun v => s.scope ++ "_" ++ v.name⟩) ∧
    (∀ path, (((build files settings).enumsAt path).map (·.fullName)).Pairwise (· < ·)) ∧
    ∀ name, (build files settings).goPackage? name =
      (files.find? (·.name == name)).map (·.goPackageOf settings) := by
  refine ⟨fun name ref => resolve?_build_iff, fun name => isSome_resolve?_build_iff,
    size_build files settings, fun path ref => mem_enumsAt_build_iff,
    ascending_enumsAt_build files settings, goPackage?_build files settings⟩

/-- Two files that declare an order with the same items and states, the first of them with a map. -/
def repeatedOrder : List File :=
  let item : Message := ⟨"Item", [], [], [], [], [], [], [], false, []⟩
  let state : Enum := ⟨"State", [⟨"OPEN", 0, []⟩], [], []⟩
  let hidden : Message := ⟨"Hidden", [], [], [], [], [], [], [], false, []⟩
  let entry : Message := ⟨"TotalsEntry", [], [], [hidden], [], [], [], [], true, []⟩
  [{ Environment.bareFile "shop.proto" "shop" with
      messages := [⟨"Order", [], [], [entry, item], [state], [], [], [], false, []⟩]
      goPackage := "example.com/shop" },
    { Environment.bareFile "more.proto" "shop" with
      messages := [⟨"Order", [], [], [item], [state], [], [], [], false, []⟩]
      goPackage := "example.com/more" }]

/-- The items and states are those of the first file, and nothing inside the map is found. -/
theorem build_exact_repeatedOrder :
    (∃ f s, First repeatedOrder f s ∧ s.enum? = none ∧ s.fullName f = "shop.Order.Item" ∧
        f.name = "shop.proto") ∧
      (¬ ∃ f s, Declared repeatedOrder f s ∧ s.enum? = none ∧
        Spells ".shop.Order.TotalsEntry.Hidden" (s.fullName f)) ∧
      (∃ f s e, First repeatedOrder f s ∧ s.enum? = some e ∧ s.fullName f = "shop.Order.State" ∧
        f.goPackageOf Settings.standard = ⟨"example.com/shop", "shop"⟩) ∧
      (build repeatedOrder Settings.standard).enumsAt "example.com/more" = [] := by
  obtain ⟨hresolve, hsome, -, henums, -, -⟩ := build_exact repeatedOrder Settings.standard
  refine ⟨?_, ?_, ?_, by decide +kernel⟩
  · have hitem : (build repeatedOrder Settings.standard).resolve? ".shop.Order.Item" =
        some ⟨"shop.Order.Item", "shop", "shop.proto", ⟨"example.com/shop", "shop"⟩,
          "Order_Item"⟩ := by
      decide +kernel
    obtain ⟨f, s, hfirst, hkind, -, hmade⟩ := (hresolve _ _).mp hitem
    exact ⟨f, s, hfirst, hkind, (congrArg MessageRef.fullName hmade).symm,
      (congrArg MessageRef.file hmade).symm⟩
  · rw [← hsome]
    decide +kernel
  · have hstate : ⟨"shop.Order.State", ⟨"example.com/shop", "shop"⟩,
        ["Order_State", "Order_State_name", "Order_State_value", "Order_OPEN"]⟩ ∈
          (build repeatedOrder Settings.standard).enumsAt "example.com/shop" := by
      decide +kernel
    obtain ⟨f, s, e, hfirst, hkind, -, hmade⟩ := (henums _ _).mp hstate
    exact ⟨f, s, e, hfirst, hkind, (congrArg EnumRef.fullName hmade).symm,
      (congrArg EnumRef.goPackage hmade).symm⟩

end TypeIndex

end GoBindings
