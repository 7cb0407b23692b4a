/-
  GoBindings/Proofs/Nesting.lean
  ==============================
  **The Go names of what is declared inside a message.**

  Whatever is declared inside a message has a site one step above its own, that of the message
  (`Declared.top_or_held`). Its path is the path of the message and its own name, with a dot
  between them, and the rule for names treats both sides of a dot on their own. So its Go name
  is that of the message and its own, and this repeats at every depth (`goIdents_nested`).
-/
import GoBindings.Proofs.Blocks
import GoBindings.Proofs.FirstDeclarations
import GoBindings.Proofs.Pieces

namespace GoBindings

open Descriptor (File Site Message Enum qualify)

/-- What stands between the Go name of a message and that of something inside it. -/
def Go.joint (name : String) : String := if startsSmall name then "" else "_"

namespace Descriptor

variable {files : List File} {f : File} {ms : List Message} {es : List Enum} {p s : Site}
  {name : String}

namespace Site

/-- The first site is that of the message that holds what is declared at the second one, under
    this name. -/
inductive Holds : Site → Site → String → Prop
  | message {place : List Nat} {line : List Message} {n : Nat} {m : Message} (hline : line ≠ []) :
      Holds ⟨place, line, none⟩ ⟨place ++ [n], line ++ [m], none⟩ m.name
  | enumeration {place : List Nat} {line : List Message} {n : Nat} {e : Enum} (hline : line ≠ []) :
      Holds ⟨place, line, none⟩ ⟨place ++ [n], line, some e⟩ e.name

/-- What is declared at the site is inside no other message. -/
inductive Top : Site → Prop
  | message {n : Nat} {m : Message} : Top ⟨[n], [m], none⟩
  | enumeration {n : Nat} {e : Enum} : Top ⟨[n], [], some e⟩

theorem Top.holds_inside (h : s.Top) (n : Nat) (m : Message) :
    ∃ name, Holds ⟨[n], [m], none⟩ ⟨n :: s.place, m :: s.line, s.enum?⟩ name := by
  cases h with
  | message => exact ⟨_, @Holds.message [n] [m] _ _ (List.cons_ne_nil _ _)⟩
  | enumeration => exact ⟨_, @Holds.enumeration [n] [m] _ _ (List.cons_ne_nil _ _)⟩

theorem Holds.inside (h : p.Holds s name) (n : Nat) (m : Message) :
    Holds ⟨n :: p.place, m :: p.line, p.enum?⟩ ⟨n :: s.place, m :: s.line, s.enum?⟩ name := by
  cases h with
  | @message place line k m' hline =>
    exact @Holds.message (n :: place) (m :: line) _ _ (List.cons_ne_nil _ _)
  | @enumeration place line k e hline =>
    exact @Holds.enumeration (n :: place) (m :: line) _ _ (List.cons_ne_nil _ _)

theorem Holds.under (h : p.Holds s name) (n : Nat) : (p.under n).Holds (s.under n) name := by
  cases h with
  | @message place line k m hline => exact @Holds.message (n :: place) _ _ _ hline
  | @enumeration place line k e hline => exact @Holds.enumeration (n :: place) _ _ _ hline

theorem Holds.subset (h : p.Holds s name) : p.line ⊆ s.line := by
  cases h with
  | message => exact List.subset_append_left _ _
  | enumeration => exact List.Subset.refl _

theorem Within.top_or_held (h : s.Within ms es) :
    s.Top ∨ ∃ (p : Site) (name : String), p.Within ms es ∧ p.Holds s name := by
  induction h with
  | message hm => exact .inl .message
  | enumeration he => exact .inl .enumeration
  | @inside ms es n m s hm hs ih =>
    refine .inr ?_
    rcases ih with htop | ⟨p, name, hp, hholds⟩
    · obtain ⟨name, hholds⟩ := htop.holds_inside n m
      exact ⟨_, name, .message hm, hholds⟩
    · exact ⟨_, name, .inside hm hp, hholds.inside n m⟩

theorem Holds.path_eq (h : p.Holds s name) : s.path = p.path ++ "." ++ name := by
  cases h with
  | @message place line n m hline =>
    simp only [path, Option.map_none, Option.toList_none, List.append_nil, List.map_append,
      List.map_cons, List.map_nil]
    exact intercalate_concat (by simpa using hline) m.name
  | @enumeration place line n e hline =>
    simp only [path, Option.map_none, Option.map_some, Option.toList_none, Option.toList_some,
      List.append_nil]
    exact intercalate_concat (by simpa using hline) e.name

theorem Holds.camelCase_path (h : p.Holds s name) :
    Go.camelCase s.path = Go.camelCase p.path ++ Go.joint name ++ Go.camelCase name := by
  rw [h.path_eq]
  exact Go.camelCase_under p.path name

theorem Holds.messageRef?_eq_some (h : p.Holds s name) (f : File) (settings : Settings) :
    p.messageRef? settings f =
      some ⟨p.fullName f, f.package, f.name, f.goPackageOf settings, Go.camelCase p.path⟩ := by
  cases h <;> rfl

theorem Holds.name_eq {e : Enum} (h : p.Holds s name) (he : s.enum? = some e) : name = e.name := by
  cases h with
  | message => exact nomatch he
  | enumeration => exact congrArg Enum.name (Option.some.inj he)

theorem Holds.scope_eq {e : Enum} (h : p.Holds s name) (he : s.enum? = some e) :
    s.scope = Go.camelCase p.path := by
  cases h with
  | message => exact nomatch he
  | enumeration hline =>
    rw [scope, if_neg hline, path]
    simp

end Site

/-- A message or enum that one of the files declares is inside none of its messages, or the file
    declares the message that holds it. -/
theorem Declared.top_or_held (h : Declared files f s) :
    (∃ n t, Site.Top t ∧ s = t.under n) ∨ ∃ p name, Declared files f p ∧ p.Holds s name := by
  obtain ⟨hf, hs, htype⟩ := h
  rcases hs.top_or_held with htop | ⟨p, name, hp, hholds⟩
  · exact .inl ⟨_, _, htop, rfl⟩
  · have hptype : p.HasType := fun m hm => htype m (hholds.subset hm)
    exact .inr ⟨_, name, .intro hf hp hptype, hholds.under _⟩

end Descriptor

namespace TypeIndex

open Descriptor

variable {files : List File} {settings : Settings} {f : File} {p s : Site} {name : String}

/-- The identifiers for an enum, given its own Go name and what its constants begin with. -/
def namesFor (ident scope : String) (e : Enum) : List String :=
  ident :: (ident ++ "_name") :: (ident ++ "_value") :: e.values.map fun v => scope ++ "_" ++ v.name

/-- A declared message is found in the index, or another one that has its full name. -/
theorem exists_of_declared {parent : MessageRef} (h : Declared files f p)
    (hparent : p.messageRef? settings f = some parent) :
    ∃ ref ∈ (build files settings).messages, ref.fullName = parent.fullName ∧
      (ref.package = parent.package → ref.goIdent = parent.goIdent) := by
  obtain ⟨henum, rfl⟩ := Site.messageRef?_eq_some_iff.mp hparent
  have hkeys : p.fullName f ∈ (build files settings).messages.map (·.fullName) := by
    rw [build_messages, mem_keys_firstBy_iff, (Site.madeOf_messageRef? settings).mem_keys_iff]
    exact ⟨f, p, h, by rw [henum]; rfl, rfl⟩
  obtain ⟨ref, href, hname⟩ := List.mem_map.mp hkeys
  refine ⟨ref, href, hname, ?_⟩
  intro hpackage
  obtain ⟨g, t, -, hmade⟩ := mem_messages_build_iff.mp href
  obtain ⟨-, rfl⟩ := Site.messageRef?_eq_some_iff.mp hmade
  -- in one package the full name tells the path
  have hscope : g.package = f.package := hpackage
  have hpath : t.path = p.path := by
    have hfull : qualify g.package t.path = qualify f.package p.path := hname
    rw [hscope] at hfull
    exact Descriptor.qualify_injective f.package hfull
  exact congrArg Go.camelCase hpath

/-- The Go name of a message or enum inside a message is that of the message and its own, with an
    underscore between them unless its own begins with a small letter. So are the names made for
    the enum, but its constants have the name of the message alone in front. The message is declared
    in the same file, and unless another package declares something under its full name, it is the
    one that the index has. -/
theorem goIdents_nested (files : List File) (settings : Settings) :
    (∀ p n, Go.camelCase (p ++ "." ++ n) = Go.camelCase p ++ Go.joint n ++ Go.camelCase n) ∧
    (∀ ref ∈ (build files settings).messages, ∃ f s, First files f s ∧
      s.messageRef? settings f = some ref ∧
      ((∃ m, s.line = [m] ∧ ref.goIdent = Go.camelCase m.name) ∨
        ∃ p name parent, Declared files f p ∧ p.Holds s name ∧
          p.messageRef? settings f = some parent ∧
          ref.goIdent = parent.goIdent ++ Go.joint name ++ Go.camelCase name)) ∧
    (∀ ref ∈ (build files settings).enums, ∃ f s e, First files f s ∧ s.enum? = some e ∧
      s.enumRef? settings f = some ref ∧
      (s.line = [] ∧ ref.goIdents = namesFor (Go.camelCase e.name) (Go.camelCase e.name) e ∨
        ∃ p parent, Declared files f p ∧ p.Holds s e.name ∧
          p.messageRef? settings f = some parent ∧
          ref.goIdents =
            namesFor (parent.goIdent ++ Go.joint e.name ++ Go.camelCase e.name) parent.goIdent e)) ∧
    ∀ f p parent, Declared files f p → p.messageRef? settings f = some parent →
      ∃ ref ∈ (build files settings).messages, ref.fullName = parent.fullName ∧
        (ref.package = parent.package → ref.goIdent = parent.goIdent) := by
  refine ⟨Go.camelCase_under, ?_, ?_, fun f p parent => exists_of_declared⟩
  · intro ref href
    obtain ⟨f, s, hfirst, hmade⟩ := mem_messages_build_iff.mp href
    obtain ⟨henum, rfl⟩ := Site.messageRef?_eq_some_iff.mp hmade
    refine ⟨f, s, hfirst, hmade, ?_⟩
    rcases hfirst.declared.top_or_held with ⟨n, t, htop, rfl⟩ | ⟨p, name, hp, hholds⟩
    · cases htop with
      | @message k m => exact .inl ⟨m, rfl, by simp [Site.path, Site.under]⟩
      | enumeration => exact absurd henum (Option.some_ne_none _)
    · exact .inr ⟨p, name, _, hp, hholds, hholds.messageRef?_eq_some f settings,
        hholds.camelCase_path⟩
  · intro ref href
    obtain ⟨f, s, hfirst, hmade⟩ := mem_enums_build_iff.mp href
    obtain ⟨e, henum, rfl⟩ := Site.enumRef?_eq_some_iff.mp hmade
    refine ⟨f, s, e, hfirst, henum, hmade, ?_⟩
    rcases hfirst.declared.top_or_held with ⟨n, t, htop, rfl⟩ | ⟨p, name, hp, hholds⟩
    · cases htop with
      | message => exact absurd henum.symm (Option.some_ne_none e)
      | @enumeration k e' =>
        obtain rfl : e' = e := Option.some.inj henum
        exact .inl ⟨rfl, by simp [Site.path, Site.under, Site.scope, namesFor]⟩
    · have hname := hholds.name_eq henum
      subst hname
      refine .inr ⟨p, _, hp, hholds, hholds.messageRef?_eq_some f settings, ?_⟩
      rw [hholds.scope_eq henum, hholds.camelCase_path]
      rfl

/-- An order with items, which have parts and a state. -/
def deepOrder : List File :=
  let part : Message := ⟨"_Part", [], [], [], [], [], [], [], false, []⟩
  let state : Enum := ⟨"state", [⟨"OPEN", 0, []⟩], [], []⟩
  let item : Message := ⟨"item", [], [], [part], [state], [], [], [], false, []⟩
  [{ Environment.bareFile "shop.proto" "shop" with
      messages := [⟨"Order", [], [], [item], [], [], [], [], false, []⟩]
      goPackage := "example.com/shop" }]

theorem top_of_mem_deepOrder (h : Declared deepOrder f s) {m : Message} (hline : s.line = [m])
    (henum : s.enum? = none) : m.name = "Order" := by
  obtain ⟨hf, hs, -⟩ := h
  obtain rfl := List.mem_singleton.mp (List.mem_of_getElem? hf)
  cases hs with
  | message hm =>
    obtain rfl := List.mem_singleton.mp (List.mem_of_getElem? hm)
    obtain rfl := (List.cons.inj hline).1
    rfl
  | enumeration => exact nomatch henum
  | inside _ hinner => exact absurd (List.cons.inj hline).2 (hinner.line_ne_nil henum)

theorem line_ne_nil_of_mem_deepOrder (h : Declared deepOrder f s) : s.line ≠ [] := by
  obtain ⟨hf, hs, -⟩ := h
  obtain rfl := List.mem_singleton.mp (List.mem_of_getElem? hf)
  cases hs with
  | message => exact List.cons_ne_nil _ _
  | enumeration he => exact absurd (List.mem_of_getElem? he) List.not_mem_nil
  | inside => exact List.cons_ne_nil _ _

/-- Parts and states are named after the order and the item. -/
theorem goIdents_nested_deepOrder :
    (∃ ref ∈ (build deepOrder Settings.standard).messages, ref.goIdent = "OrderItem_XPart" ∧
      ∃ (f : File) (p s : Site) (name : String) (parent : MessageRef), First deepOrder f s ∧
        s.messageRef? Settings.standard f = some ref ∧ p.Holds s name ∧
        p.messageRef? Settings.standard f = some parent ∧
        ref.goIdent = parent.goIdent ++ Go.joint name ++ Go.camelCase name) ∧
      ∃ ref ∈ (build deepOrder Settings.standard).enums,
        ref.goIdents = ["OrderItemState", "OrderItemState_name", "OrderItemState_value",
          "OrderItem_OPEN"] ∧
        ∃ (f : File) (p s : Site) (e : Enum) (parent : MessageRef), First deepOrder f s ∧
          s.enumRef? Settings.standard f = some ref ∧ p.Holds s e.name ∧
          p.messageRef? Settings.standard f = some parent ∧
          ref.goIdents =
            namesFor (parent.goIdent ++ Go.joint e.name ++ Go.camelCase e.name) parent.goIdent
              e := by
  obtain ⟨-, hmessages, henums, -⟩ := goIdents_nested deepOrder Settings.standard
  constructor
  · obtain ⟨ref, href, hident⟩ : ∃ ref ∈ (build deepOrder Settings.standard).messages,
        ref.goIdent = "OrderItem_XPart" := by
      decide +kernel
    refine ⟨ref, href, hident, ?_⟩
    obtain ⟨f, s, hfirst, hmade,
      ⟨m, hline, htop⟩ | ⟨p, name, parent, -, hholds, hparent, hnested⟩⟩ := hmessages ref href
    · have henum := (Site.messageRef?_eq_some_iff.mp hmade).1
      rw [top_of_mem_deepOrder hfirst.declared hline henum, hident] at htop
      exact absurd htop (by decide +kernel)
    · exact ⟨f, p, s, name, parent, hfirst, hmade, hholds, hparent, hnested⟩
  · obtain ⟨ref, href, hidents⟩ : ∃ ref ∈ (build deepOrder Settings.standard).enums,
        ref.goIdents = ["OrderItemState", "OrderItemState_name", "OrderItemState_value",
          "OrderItem_OPEN"] := by
      decide +kernel
    refine ⟨ref, href, hidents, ?_⟩
    obtain ⟨f, s, e, hfirst, -, hmade,
      ⟨htop, -⟩ | ⟨p, parent, -, hholds, hparent, hnested⟩⟩ := henums ref href
    · exact absurd htop (line_ne_nil_of_mem_deepOrder hfirst.declared)
    · exact ⟨f, p, s, e, parent, hfirst, hmade, hholds, hparent, hnested⟩

end TypeIndex

end GoBindings
