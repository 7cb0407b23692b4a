/-
  GoBindings/Proofs/IndexOrder.lean
  =================================
  **What the type index gives does not depend on the order of the files.**

  The index names a type by its package and its path, the pool by its scope and its name. For
  files in which every message has a full name both give the same names
  (`TypeIndex.definitions_sublist`). So if what the files define goes together, the index has no
  name twice, it leaves out none of the declarations, and what it finds and lists is the same
  for the files in another order.
-/
import GoBindings.Proofs.Keys
import GoBindings.Proofs.UniqueNames
import GoBindings.TypeIndex

namespace GoBindings

open Descriptor (qualify pathUnder Declaration Member Message)

/-! ### Paths and scopes -/

/-- What has a path under the parent has the same full name in the scope. -/
def Leads (package : String) (parent : Option String) (scope : String) : Prop :=
  ∀ name, qualify package (pathUnder parent name) = qualify scope name

theorem leads_none (package : String) : Leads package none package := fun _ => rfl

theorem qualify_append (scope name rest : String) :
    qualify scope (name ++ rest) = qualify scope name ++ rest := by
  unfold qualify
  split
  · rfl
  · simp only [String.append_assoc]

theorem qualify_of_ne {scope : String} (h : scope ≠ "") (name : String) :
    qualify scope name = scope ++ ("." ++ name) := by
  rw [qualify, if_neg (by simpa using h), String.append_assoc]

theorem Leads.under {package scope name : String} {parent : Option String}
    (h : Leads package parent scope) (hname : qualify scope name ≠ "") :
    Leads package (some (pathUnder parent name)) (qualify scope name) := by
  intro inner
  rw [qualify_of_ne hname, ← h name, ← qualify_append, ← String.append_assoc]
  rfl

/-! ### Declared types -/

namespace Descriptor

/-- The type that a declaration gives in a file of a package. -/
def Declaration.definition (file package : String) : Declaration → Definition
  | .message path _ => ⟨qualify package path, .message, file⟩
  | .enumeration parent e => ⟨qualify package (pathUnder parent e.name), .enumeration, file⟩

/-- The type that a member gives, if it is a type. -/
def Member.typeDefinition? (file : String) : Member → Option Definition
  | .message scope m => some ⟨qualify scope m.name, .message, file⟩
  | .enumeration scope e => some ⟨qualify scope e.name, .enumeration, file⟩
  | .extensionField _ _ => none

/-- Whether a member, if it is a message, has a full name. -/
def Member.IsNamed : Member → Prop
  | .message scope m => qualify scope m.name ≠ ""
  | _ => True

variable {leftOut : Message → Bool} {file package : String}

theorem enums_sublist {parent : Option String} {scope : String}
    (h : Leads package parent scope) (enums : List Enum) (extensions : List Field) :
    ((enums.map (Declaration.enumeration parent)).map (Declaration.definition file package)).Sublist
      ((enums.map (Member.enumeration scope)
        ++ extensions.map (Member.extensionField scope)).filterMap
          (Member.typeDefinition? file)) := by
  have henums : (enums.map (Member.enumeration scope)).filterMap (Member.typeDefinition? file) =
      (enums.map (Declaration.enumeration parent)).map (Declaration.definition file package) := by
    rw [List.filterMap_map, List.map_map, ← List.filterMap_eq_map]
    refine List.filterMap_congr fun e _ => ?_
    simp only [Function.comp_apply, Member.typeDefinition?, Declaration.definition, h e.name]
  rw [List.filterMap_append, henums]
  exact List.sublist_append_left _ _

mutual

/-- The declarations inside a message give some of the types that its members give. -/
theorem Message.declarations_sublist {parent : Option String} {scope : String}
    (h : Leads package parent scope) :
    ∀ m : Message, (∀ x ∈ m.members scope, x.IsNamed) →
      ((m.declarations leftOut parent).map (Declaration.definition file package)).Sublist
        ((m.members scope).filterMap (Member.typeDefinition? file))
  | ⟨name, fields, oneofs, nested, enums, extensions, ranges, reserved, mapEntry, options⟩ => by
    intro hnamed
    rw [Message.members, List.forall_mem_cons] at hnamed
    have hunder : Leads package (some (pathUnder parent name)) (qualify scope name) :=
      h.under hnamed.1
    rw [Message.declarations, Message.members]
    split
    -- a message that is left out has no Go type, and neither has what it holds
    case isTrue => exact List.nil_sublist _
    case isFalse =>
      rw [List.map_cons, Declaration.definition, h name, List.filterMap_cons, List.map_append,
        List.append_assoc, List.filterMap_append]
      refine List.Sublist.cons_cons _
        (List.Sublist.append ?_ (enums_sublist hunder enums extensions))
      refine declarationsOfAll_sublist hunder nested fun x hx => hnamed.2 x ?_
      exact List.mem_append_left _ (List.mem_append_left _ hx)

theorem declarationsOfAll_sublist {parent : Option String} {scope : String}
    (h : Leads package parent scope) :
    ∀ ms : List Message, (∀ x ∈ membersOfAll scope ms, x.IsNamed) →
      ((declarationsOfAll leftOut parent ms).map (Declaration.definition file package)).Sublist
        ((membersOfAll scope ms).filterMap (Member.typeDefinition? file))
  | [] => fun _ => List.nil_sublist _
  | m :: rest => by
    intro hnamed
    rw [membersOfAll, List.forall_mem_append] at hnamed
    rw [declarationsOfAll, membersOfAll, List.map_append, List.filterMap_append]
    exact (Message.declarations_sublist h m hnamed.1).append
      (declarationsOfAll_sublist h rest hnamed.2)

end

/-- Every message of a file, at any depth, has a full name. -/
def File.NamesMessages (f : File) : Prop := ∀ m ∈ f.messageTypes, m.1 ≠ ""

theorem File.NamesMessages.isNamed {f : File} (h : f.NamesMessages) {x : Member}
    (hx : x ∈ f.members) : x.IsNamed := by
  cases x with
  | message scope m => exact h (qualify scope m.name, m) (List.mem_filterMap.mpr ⟨_, hx, rfl⟩)
  | enumeration scope e => trivial
  | extensionField scope x => trivial

end Descriptor

namespace TypeIndex

/-! ### Names of one file -/

section File

variable {f : Descriptor.File} (h : f.NamesMessages)
include h

/-- The types that have Go types are defined by the file, under the same names. -/
theorem definitions_sublist :
    ((declarations f).map (Declaration.definition f.name f.package)).Sublist f.definitions := by
  have hmembers : ((declarations f).map (Declaration.definition f.name f.package)).Sublist
      (f.members.filterMap (Member.typeDefinition? f.name)) := by
    rw [declarations, Descriptor.File.declarations, Descriptor.File.members, List.map_append,
      List.append_assoc, List.filterMap_append]
    refine List.Sublist.append ?_
      (Descriptor.enums_sublist (leads_none f.package) f.enums f.extensions)
    refine Descriptor.declarationsOfAll_sublist (leads_none f.package) f.messages fun x hx => ?_
    exact h.isNamed (List.mem_append_left _ (List.mem_append_left _ hx))
  refine hmembers.trans (f.filterMap_members_sublist fun x => ?_)
  cases x with
  | message scope m => exact List.singleton_sublist.mpr List.mem_cons_self
  | enumeration scope e => exact List.singleton_sublist.mpr List.mem_cons_self
  | extensionField scope x => exact List.nil_sublist _

theorem filterMap_declarations_sublist {g : Declaration → Option Definition}
    (hg : ∀ d, (g d).toList.Sublist [d.definition f.name f.package]) :
    ((declarations f).filterMap g).Sublist f.definitions := by
  have hsub := filterMap_sublist_flatMap (declarations f) hg
  rw [← List.map_eq_flatMap] at hsub
  exact hsub.trans (definitions_sublist h)

theorem messagesOf_sublist (settings : Settings) :
    (f.defining .message ((messagesOf settings f).map (·.fullName))).Sublist f.definitions := by
  rw [Descriptor.File.defining, List.map_map, messagesOf, List.map_filterMap]
  refine filterMap_declarations_sublist h fun d => ?_
  cases d with
  | message path m => exact List.Sublist.refl _
  | enumeration parent e => exact List.nil_sublist _

theorem enumsOf_sublist (settings : Settings) :
    (f.defining .enumeration ((enumsOf settings f).map (·.fullName))).Sublist f.definitions := by
  rw [Descriptor.File.defining, List.map_map, enumsOf, List.map_filterMap]
  refine filterMap_declarations_sublist h fun d => ?_
  cases d with
  | message path m => exact List.nil_sublist _
  | enumeration parent e => exact List.Sublist.refl _

end File

/-! ### Names of all files -/

section Files

variable {files order : List Descriptor.File} (hagree : DefinitionsAgree files)
  (hnamed : ∀ f ∈ files, f.NamesMessages)
include hagree hnamed

theorem nodup_messages (settings : Settings) :
    ((files.flatMap (messagesOf settings)).map (·.fullName)).Nodup := by
  rw [List.map_flatMap]
  exact hagree.nodup_names .message (by decide) fun f hf =>
    messagesOf_sublist (hnamed f hf) settings

theorem nodup_enums (settings : Settings) :
    ((files.flatMap (enumsOf settings)).map (·.fullName)).Nodup := by
  rw [List.map_flatMap]
  exact hagree.nodup_names .enumeration (by decide) fun f hf =>
    enumsOf_sublist (hnamed f hf) settings

/-- No declaration is left out for having a name that another one has. -/
theorem messages_build (settings : Settings) :
    (build files settings).messages = files.flatMap (messagesOf settings) :=
  firstBy_of_nodup (nodup_messages hagree hnamed settings)

theorem enums_build (settings : Settings) :
    (build files settings).enums = files.flatMap (enumsOf settings) :=
  firstBy_of_nodup (nodup_enums hagree hnamed settings)

end Files

/-! ### Another order -/

/-- The same is found in both, and they list the same for each Go package. -/
structure Alike (i j : TypeIndex) : Prop where
  resolve? : ∀ name, i.resolve? name = j.resolve? name
  goPackage? : ∀ file, i.goPackage? file = j.goPackage? file
  messagesAt : ∀ path, i.messagesAt path = j.messagesAt path
  enumsAt : ∀ path, i.enumsAt path = j.enumsAt path

theorem alike_of_perm {i j : TypeIndex} (hmessages : i.messages.Perm j.messages)
    (henums : i.enums.Perm j.enums) (hfiles : i.files.Perm j.files)
    (hmessageNames : (i.messages.map (·.fullName)).Nodup)
    (henumNames : (i.enums.map (·.fullName)).Nodup)
    (hfileNames : (i.files.map (·.1)).Nodup) : i.Alike j where
  resolve? _ := find?_key_perm hmessages hmessageNames _
  goPackage? file := lookup_perm hfiles hfileNames file
  messagesAt _ := mergeSort_key_perm (hmessages.filter _)
    (hmessageNames.sublist (List.filter_sublist.map _))
  enumsAt _ := mergeSort_key_perm (henums.filter _)
    (henumNames.sublist (List.filter_sublist.map _))

/-- In whatever order the files come, their index gives the same. -/
theorem build_alike {files order : List Descriptor.File} (hperm : files.Perm order)
    (hnames : (files.map (·.name)).Nodup) (hagree : DefinitionsAgree files)
    (hnamed : ∀ f ∈ files, f.NamesMessages) (settings : Settings) :
    (build files settings).Alike (build order settings) := by
  have hagree' : DefinitionsAgree order := hagree.perm hperm
  have hnamed' : ∀ f ∈ order, f.NamesMessages := fun f hf => hnamed f (hperm.mem_iff.mpr hf)
  refine alike_of_perm ?_ ?_ (hperm.map _) ?_ ?_ ?_
  · rw [messages_build hagree hnamed, messages_build hagree' hnamed']
    exact hperm.flatMap_right _
  · rw [enums_build hagree hnamed, enums_build hagree' hnamed']
    exact hperm.flatMap_right _
  · rw [messages_build hagree hnamed]
    exact nodup_messages hagree hnamed settings
  · rw [enums_build hagree hnamed]
    exact nodup_enums hagree hnamed settings
  · rwa [build, List.map_map]

end TypeIndex

end GoBindings
