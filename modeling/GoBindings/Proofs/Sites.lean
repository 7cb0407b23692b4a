/-
  GoBindings/Proofs/Sites.lean
  ============================
  **Where messages and enums are declared.**

  A message or enum has a place: the position to go to in each list of declarations on the way
  to it, enums being counted behind the messages beside them. Places are compared from the
  left, so a message comes before what it holds, and that before the next message. What there
  is at a place, and inside which messages, is the relation `Site.Within`.

  `sitesIn` goes through all of it in the order of the places (`ascending_sitesIn`) and finds
  what is inside no entry type of a map, nothing else (`mem_sitesIn_iff`). The declarations that
  the type index is built from are the same ones in the same order (`File.view_declarations`).
-/
import GoBindings.Descriptor.Basic
import Mathlib.Data.List.Lex

namespace GoBindings

/-! ### Numbered lists -/

section Numbered

variable {α β γ : Type} {below : Nat → β → β} {g : α → List β} {place : β → List Nat}

/-- What the elements of a list give, each with its number in the list put in front. -/
def numbered (below : Nat → β → β) (g : α → List β) (k : Nat) : List α → List β
  | [] => []
  | x :: rest => (g x).map (below k) ++ numbered below g (k + 1) rest

theorem mem_numbered_iff {k : Nat} {xs : List α} {y : β} :
    y ∈ numbered below g k xs ↔
      ∃ n x z, xs[n]? = some x ∧ z ∈ g x ∧ y = below (k + n) z := by
  induction xs generalizing k with
  | nil => simp [numbered]
  | cons x rest ih =>
    rw [numbered, List.mem_append, List.mem_map, ih]
    constructor
    · rintro (⟨z, hz, rfl⟩ | ⟨n, x', z, hx', hz, rfl⟩)
      · exact ⟨0, x, z, rfl, hz, rfl⟩
      · refine ⟨n + 1, x', z, hx', hz, ?_⟩
        rw [Nat.add_assoc, Nat.add_comm 1 n]
    · rintro ⟨n, x', z, hx', hz, rfl⟩
      cases n with
      | zero =>
        obtain rfl := Option.some.inj hx'
        exact .inl ⟨z, hz, rfl⟩
      | succ n =>
        refine .inr ⟨n, x', z, hx', hz, ?_⟩
        rw [Nat.add_assoc, Nat.add_comm 1 n]

/-- If the elements give ascending places, so does the whole list. -/
theorem ascending_numbered (hplace : ∀ n z, place (below n z) = n :: place z) {k : Nat}
    {xs : List α} (h : ∀ x ∈ xs, (g x).Pairwise (place · < place ·)) :
    (numbered below g k xs).Pairwise (place · < place ·) := by
  induction xs generalizing k with
  | nil => exact List.Pairwise.nil
  | cons x rest ih =>
    rw [List.forall_mem_cons] at h
    rw [numbered, List.pairwise_append, List.pairwise_map]
    refine ⟨?_, ih h.2, ?_⟩
    · refine h.1.imp ?_
      intro a b hab
      rw [hplace, hplace, List.cons_lt_cons_iff]
      exact .inr ⟨rfl, hab⟩
    · intro a ha b hb
      obtain ⟨z, -, rfl⟩ := List.mem_map.mp ha
      obtain ⟨n, -, w, -, -, rfl⟩ := mem_numbered_iff.mp hb
      rw [hplace, hplace, List.cons_lt_cons_iff]
      exact .inl (by omega)

theorem filterMap_numbered {f : β → Option γ} (hf : ∀ n z, f (below n z) = f z) (k : Nat)
    (xs : List α) :
    (numbered below g k xs).filterMap f = xs.flatMap fun x => (g x).filterMap f := by
  induction xs generalizing k with
  | nil => rfl
  | cons x rest ih =>
    rw [numbered, List.filterMap_append, List.filterMap_map, ih, List.flatMap_cons]
    refine congrArg₂ _ ?_ rfl
    exact List.filterMap_congr fun z _ => hf k z

end Numbered

namespace Descriptor

/-! ### Sites -/

/-- Where something is declared. -/
structure Site where
  place : List Nat
  /-- The messages that it is inside, from the outside in. A message is inside itself. -/
  line : List Message
  /-- The enum that is declared, if it is one. -/
  enum? : Option Enum

namespace Site

/-- What is declared within messages and enums that stand side by side. -/
inductive Within : List Message → List Enum → Site → Prop
  | message {ms : List Message} {es : List Enum} {n : Nat} {m : Message}
      (hm : ms[n]? = some m) : Within ms es ⟨[n], [m], none⟩
  | enumeration {ms : List Message} {es : List Enum} {n : Nat} {e : Enum}
      (he : es[n]? = some e) : Within ms es ⟨[ms.length + n], [], some e⟩
  | inside {ms : List Message} {es : List Enum} {n : Nat} {m : Message} {s : Site}
      (hm : ms[n]? = some m) (hs : Within m.nested m.enums s) :
      Within ms es ⟨n :: s.place, m :: s.line, s.enum?⟩

/-- The names on the way, with dots between them. -/
def path (s : Site) : String :=
  ".".intercalate (s.line.map (·.name) ++ (s.enum?.map (·.name)).toList)

def under (n : Nat) (s : Site) : Site := { s with place := n :: s.place }

def inside (m : Message) (s : Site) : Site := { s with line := m :: s.line }

/-- Nothing on the way is the entry type of a map. -/
def HasType (s : Site) : Prop := ∀ m ∈ s.line, m.mapEntry = false

end Site

/-! ### Going through them -/

mutual

/-- The sites of a message and of what it holds, as places inside the message. -/
def Message.sites : Message → List Site
  | ⟨name, fields, oneofs, nested, enums, extensions, ranges, reserved, mapEntry, options⟩ =>
    let m : Message :=
      ⟨name, fields, oneofs, nested, enums, extensions, ranges, reserved, mapEntry, options⟩
    if mapEntry then []
    else
      ⟨[], [m], none⟩
        :: (sitesOfAll 0 nested
          ++ numbered Site.under (fun e => [⟨[], [], some e⟩]) nested.length enums).map
            (Site.inside m)

/-- The sites of messages one after the other, from a number on. -/
def sitesOfAll (k : Nat) : List Message → List Site
  | [] => []
  | m :: rest => m.sites.map (Site.under k) ++ sitesOfAll (k + 1) rest

end

def enumSites (k : Nat) (es : List Enum) : List Site :=
  numbered Site.under (fun e => [⟨[], [], some e⟩]) k es

def sitesIn (ms : List Message) (es : List Enum) : List Site :=
  sitesOfAll 0 ms ++ enumSites ms.length es

variable {ms : List Message} {es : List Enum} {s : Site}

theorem Message.sites_eq (m : Message) :
    m.sites = if m.mapEntry then []
      else ⟨[], [m], none⟩ :: (sitesIn m.nested m.enums).map (Site.inside m) := by
  cases m
  rw [Message.sites]
  rfl

theorem sitesOfAll_eq (k : Nat) (ms : List Message) :
    sitesOfAll k ms = numbered Site.under Message.sites k ms := by
  induction ms generalizing k with
  | nil => rfl
  | cons m rest ih => rw [sitesOfAll, ih, numbered]

theorem mem_sites_iff {m : Message} : s ∈ m.sites ↔ m.mapEntry = false ∧
    (s = ⟨[], [m], none⟩ ∨ ∃ t ∈ sitesIn m.nested m.enums, s = t.inside m) := by
  rw [Message.sites_eq]
  by_cases hentry : m.mapEntry
  · rw [if_pos hentry, hentry]
    simp
  · rw [if_neg hentry, List.mem_cons, List.mem_map]
    rw [Bool.not_eq_true] at hentry
    simp [hentry, eq_comm]

theorem mem_sitesIn_cases : s ∈ sitesIn ms es ↔
    (∃ n m, ∃ t : Site, ms[n]? = some m ∧ t ∈ m.sites ∧ s = t.under n) ∨
      ∃ n e, es[n]? = some e ∧ s = ⟨[ms.length + n], [], some e⟩ := by
  rw [sitesIn, List.mem_append, sitesOfAll_eq, mem_numbered_iff, enumSites, mem_numbered_iff]
  simp only [Nat.zero_add, List.mem_singleton]
  refine or_congr_right ?_
  constructor
  · rintro ⟨n, e, t, he, rfl, rfl⟩
    exact ⟨n, e, he, rfl⟩
  · rintro ⟨n, e, he, rfl⟩
    exact ⟨n, e, _, he, rfl, rfl⟩

/-- All sites are found, except inside entry types of maps. -/
theorem mem_sitesIn_iff : s ∈ sitesIn ms es ↔ s.Within ms es ∧ s.HasType := by
  constructor
  · -- on the place, which is shorter inside a message
    intro hs
    obtain ⟨place, line, enum?⟩ := s
    induction place generalizing ms es line with
    | nil =>
      rcases mem_sitesIn_cases.mp hs with ⟨n, m, t, -, -, heq⟩ | ⟨n, e, -, heq⟩
      · exact nomatch congrArg Site.place heq
      · exact nomatch congrArg Site.place heq
    | cons n place ih =>
      rcases mem_sitesIn_cases.mp hs with ⟨n', m, t, hm, ht, heq⟩ | ⟨n', e, he, heq⟩
      · obtain ⟨hentry, htop | ⟨⟨uplace, uline, uenum?⟩, hu, htop⟩⟩ := mem_sites_iff.mp ht
        · rw [heq, htop]
          refine ⟨.message hm, ?_⟩
          intro x hx
          rw [List.mem_singleton.mp hx]
          exact hentry
        · rw [htop] at heq
          obtain ⟨hplace, rfl, rfl⟩ := Site.mk.inj heq
          obtain ⟨rfl, rfl⟩ := List.cons.inj hplace
          obtain ⟨hwithin, htype⟩ := ih uline hu
          refine ⟨.inside hm hwithin, ?_⟩
          intro x hx
          rcases List.mem_cons.mp hx with rfl | hx
          · exact hentry
          · exact htype x hx
      · rw [heq]
        refine ⟨.enumeration he, ?_⟩
        intro x hx
        exact absurd hx List.not_mem_nil
  · rintro ⟨hwithin, htype⟩
    induction hwithin with
    | message hm =>
      have hentry := htype _ (List.mem_singleton_self _)
      exact mem_sitesIn_cases.mpr (.inl ⟨_, _, _, hm, mem_sites_iff.mpr ⟨hentry, .inl rfl⟩, rfl⟩)
    | enumeration he => exact mem_sitesIn_cases.mpr (.inr ⟨_, _, he, rfl⟩)
    | inside hm _ ih =>
      have hentry := htype _ List.mem_cons_self
      have hinner := ih fun x hx => htype x (List.mem_cons_of_mem _ hx)
      exact mem_sitesIn_cases.mpr
        (.inl ⟨_, _, _, hm, mem_sites_iff.mpr ⟨hentry, .inr ⟨_, hinner, rfl⟩⟩, rfl⟩)

/-! ### In the order of places -/

theorem place_under (n : Nat) (s : Site) : (s.under n).place = n :: s.place := rfl

/-- If each of the messages gives ascending places, so does everything beside them. -/
theorem ascending_of_sites (h : ∀ m ∈ ms, m.sites.Pairwise (·.place < ·.place))
    (es : List Enum) : (sitesIn ms es).Pairwise (·.place < ·.place) := by
  rw [sitesIn, sitesOfAll_eq, List.pairwise_append]
  refine ⟨ascending_numbered place_under h,
    ascending_numbered place_under fun _ _ => List.pairwise_singleton _ _, ?_⟩
  intro a ha b hb
  obtain ⟨n, m, t, hm, -, rfl⟩ := mem_numbered_iff.mp ha
  obtain ⟨j, -, u, -, -, rfl⟩ := mem_numbered_iff.mp hb
  have hn : n < ms.length := (List.getElem?_eq_some_iff.mp hm).1
  rw [place_under, place_under, List.cons_lt_cons_iff]
  exact .inl (by omega)

theorem ascending_sites_of_nested {m : Message}
    (h : ∀ x ∈ m.nested, x.sites.Pairwise (·.place < ·.place)) :
    m.sites.Pairwise (·.place < ·.place) := by
  rw [Message.sites_eq]
  by_cases hentry : m.mapEntry
  · rw [if_pos hentry]
    exact List.Pairwise.nil
  · rw [if_neg hentry, List.pairwise_cons, List.pairwise_map]
    refine ⟨?_, ascending_of_sites h m.enums⟩
    intro t ht
    obtain ⟨u, hu, rfl⟩ := List.mem_map.mp ht
    rcases mem_sitesIn_cases.mp hu with ⟨n, x, v, -, -, rfl⟩ | ⟨n, e, -, rfl⟩
    · exact List.nil_lt_cons _ _
    · exact List.nil_lt_cons _ _

mutual

theorem Message.ascending_sites : ∀ m : Message, m.sites.Pairwise (·.place < ·.place)
  | ⟨_, _, _, nested, _, _, _, _, _, _⟩ =>
    ascending_sites_of_nested (ascending_sites_of_mem nested)

theorem ascending_sites_of_mem :
    ∀ ms : List Message, ∀ m ∈ ms, m.sites.Pairwise (·.place < ·.place)
  | [] => fun _ hm => absurd hm List.not_mem_nil
  | first :: rest => by
    have hfirst := Message.ascending_sites first
    have hrest := ascending_sites_of_mem rest
    intro m hm
    rcases List.mem_cons.mp hm with rfl | hm
    · exact hfirst
    · exact hrest m hm

end

theorem ascending_sitesIn (ms : List Message) (es : List Enum) :
    (sitesIn ms es).Pairwise (·.place < ·.place) :=
  ascending_of_sites (ascending_sites_of_mem ms) es

/-! ### The declarations of a file -/

theorem intercalate_concat {names : List String} (h : names ≠ []) (name : String) :
    ".".intercalate (names ++ [name]) = ".".intercalate names ++ "." ++ name := by
  induction names with
  | nil => exact absurd rfl h
  | cons first rest ih =>
    cases rest with
    | nil => simp [String.intercalate_cons_cons]
    | cons second rest =>
      rw [List.cons_append, List.cons_append, String.intercalate_cons_cons, ← List.cons_append,
        ih (List.cons_ne_nil _ _), String.intercalate_cons_cons]
      simp only [String.append_assoc]

/-- The path of the last of messages that hold each other, if there are any. -/
def linePath (line : List Message) : Option String :=
  if line = [] then none else some (".".intercalate (line.map (·.name)))

theorem pathUnder_linePath (line : List Message) (name : String) :
    pathUnder (linePath line) name = ".".intercalate (line.map (·.name) ++ [name]) := by
  unfold linePath
  by_cases hline : line = []
  · rw [if_pos hline, hline]
    simp [pathUnder]
  · rw [if_neg hline, intercalate_concat (by simpa using hline)]
    rfl

theorem linePath_concat (line : List Message) (m : Message) :
    linePath (line ++ [m]) = some (pathUnder (linePath line) m.name) := by
  rw [pathUnder_linePath, linePath, if_neg (by simp), List.map_append, List.map_singleton]

/-- What a declaration says of its place: the path of the message that it is inside, and the enum
    that it is, if it is one. -/
def Declaration.view : Declaration → Option String × Option Enum
  | .message path _ => (some path, none)
  | .enumeration parent e => (parent, some e)

/-- What a site says of the same, inside further messages. -/
def Site.view (above : List Message) (s : Site) : Option String × Option Enum :=
  (linePath (above ++ s.line), s.enum?)

theorem view_inside (above : List Message) (m : Message) (s : Site) :
    (s.inside m).view above = s.view (above ++ [m]) := by
  simp [Site.view, Site.inside]

theorem map_view_enumSites (above : List Message) (k : Nat) (es : List Enum) :
    (enumSites k es).map (Site.view above) =
      (es.map (Declaration.enumeration (linePath above))).map Declaration.view := by
  have hunder : ∀ n s, some (Site.view above (s.under n)) = some (Site.view above s) :=
    fun _ _ => rfl
  rw [enumSites, ← List.filterMap_eq_map', filterMap_numbered hunder, List.map_map,
    List.map_eq_flatMap]
  refine List.flatMap_congr fun e _ => ?_
  simp [Site.view, Declaration.view]

theorem Message.declarations_eq (leftOut : Message → Bool) (parent : Option String)
    (m : Message) : m.declarations leftOut parent = if leftOut m then []
      else .message (pathUnder parent m.name) m
        :: (declarationsOfAll leftOut (some (pathUnder parent m.name)) m.nested
          ++ m.enums.map (.enumeration (some (pathUnder parent m.name)))) := by
  cases m
  rw [Message.declarations]

/-- If the nested messages are gone through alike, so is the message. -/
theorem view_declarations_of_nested {m : Message} (h : ∀ above,
    (declarationsOfAll (·.mapEntry) (linePath above) m.nested).map Declaration.view =
      (sitesOfAll 0 m.nested).map (Site.view above)) (above : List Message) :
    (m.declarations (·.mapEntry) (linePath above)).map Declaration.view =
      m.sites.map (Site.view above) := by
  have hinside : Site.view above ∘ Site.inside m = Site.view (above ++ [m]) :=
    funext fun s => view_inside above m s
  rw [Message.declarations_eq, Message.sites_eq]
  by_cases hentry : m.mapEntry
  · rw [if_pos hentry, if_pos hentry]
    rfl
  · rw [if_neg hentry, if_neg hentry, List.map_cons, List.map_cons, List.map_map, hinside,
      ← linePath_concat, List.map_append, h, sitesIn, List.map_append, map_view_enumSites]
    refine congrArg₂ _ ?_ rfl
    rw [Declaration.view, Site.view, linePath_concat]

mutual

theorem Message.view_declarations (above : List Message) : ∀ m : Message,
    (m.declarations (·.mapEntry) (linePath above)).map Declaration.view =
      m.sites.map (Site.view above)
  | ⟨_, _, _, nested, _, _, _, _, _, _⟩ =>
    view_declarations_of_nested (fun above => view_declarationsOfAll above 0 nested) above

theorem view_declarationsOfAll (above : List Message) (k : Nat) : ∀ ms : List Message,
    (declarationsOfAll (·.mapEntry) (linePath above) ms).map Declaration.view =
      (sitesOfAll k ms).map (Site.view above)
  | [] => by
    rw [declarationsOfAll, sitesOfAll]
    rfl
  | m :: rest => by
    rw [declarationsOfAll, sitesOfAll, List.map_append, List.map_append, List.map_map,
      Message.view_declarations above m, view_declarationsOfAll above (k + 1) rest]
    rfl

end

/-- The messages and enums of a file that have Go types, in the order of their places. -/
def File.sites (f : File) : List Site := sitesIn f.messages f.enums

theorem File.view_declarations (f : File) :
    (f.declarations (·.mapEntry)).map Declaration.view = f.sites.map (Site.view []) := by
  have hmessages := view_declarationsOfAll [] 0 f.messages
  have henums := map_view_enumSites [] f.messages.length f.enums
  have htop : linePath [] = none := rfl
  rw [htop] at hmessages henums
  rw [File.declarations, File.sites, sitesIn, List.map_append, List.map_append, hmessages, henums]

end Descriptor

end GoBindings
