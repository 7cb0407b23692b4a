/-
  GoBindings/Proofs/GrowingPools.lean
  ===================================
  **What a pool knows, it knows when more files have come.**

  Where no file is left out, a name that is resolved to a message is that of a message of the
  pool. So a pool has the types of all messages that its fields hold
  (`CustomOptions.knows_held_message`), and knows all messages that its extensions extend. With
  more files it grows: every message, field and extension that it found it finds still
  (`CustomOptions.grows_append`). The rivals of a field are those of its oneof
  (`CustomOptions.types_oneofs`).
-/
import GoBindings.Proofs.ChosenNames
import GoBindings.Proofs.Reencoding
import GoBindings.Proofs.WholePools

namespace GoBindings

/-! ### What a name is resolved to -/

namespace Surroundings

variable {s : Surroundings} {wanted : Entity → Bool} {scope name : String} {d : Definition}

theorem find?_eq_some (h : s.find? wanted name = some d) :
    d ∈ s.definitions ∧ wanted d.entity = true := by
  obtain ⟨hlookup, hd⟩ := Option.filter_eq_some_iff.mp h
  exact ⟨List.mem_of_find?_eq_some hlookup, (Bool.and_eq_true _ _ ▸ hd).1⟩

theorem resolve?_eq_some (h : s.resolve? wanted scope name = some d) :
    d ∈ s.definitions ∧ wanted d.entity = true := by
  unfold resolve? at h
  split at h
  case h_1 => exact find?_eq_some h
  case h_2 =>
    split at h
    case isTrue => exact find?_eq_some h
    case isFalse =>
      split at h
      case h_1 =>
        obtain ⟨outer, -, houter⟩ := List.exists_of_findSome?_eq_some h
        exact find?_eq_some houter
      case h_2 =>
        split at h
        case h_1 => exact find?_eq_some h
        case h_2 => exact nomatch h

end Surroundings

namespace Descriptor

variable {s : Surroundings} {isProto3 : Bool} {scope : String} {rivals : List Nat} {d : Field}
  {f : Linked.Field} {x : Linked.Extension}

/-- What is defined as a message is one of the messages of the file. -/
theorem File.mem_messageTypes_of_mem_definitions {f : File} {d : Definition}
    (hd : d ∈ f.definitions) (hmessage : d.entity = .message) :
    d.name ∈ f.messageTypes.map (·.1) := by
  rw [File.definitions, List.mem_append, List.mem_append] at hd
  rcases hd with (hpackage | hmember) | hservice
  · obtain ⟨p, -, rfl⟩ := List.mem_map.mp hpackage
    exact nomatch hmessage
  · obtain ⟨member, hmem, hd⟩ := List.mem_flatMap.mp hmember
    cases member with
    | message scope m =>
      rcases List.mem_cons.mp hd with rfl | hd
      · exact List.mem_map.mpr ⟨_, List.mem_filterMap.mpr ⟨_, hmem, rfl⟩, rfl⟩
      · rcases List.mem_append.mp hd with hd | hd
        all_goals
          obtain ⟨y, -, rfl⟩ := List.mem_map.mp hd
          exact nomatch hmessage
    | enumeration scope e =>
      rcases List.mem_cons.mp hd with rfl | hd
      · exact nomatch hmessage
      · obtain ⟨v, -, rfl⟩ := List.mem_map.mp hd
        exact nomatch hmessage
    | extensionField scope y =>
      obtain rfl := List.mem_singleton.mp hd
      exact nomatch hmessage
  · obtain ⟨v, -, hd⟩ := List.mem_flatMap.mp hservice
    rcases List.mem_cons.mp hd with rfl | hd
    · exact nomatch hmessage
    · obtain ⟨m, -, rfl⟩ := List.mem_map.mp hd
      exact nomatch hmessage

/-! ### What a field is resolved to -/

theorem Field.kind?_message {kind : Linked.Kind} {inner : String}
    (h : d.kind? s scope = some kind) (hinner : kind.message? = some inner) :
    ∃ e ∈ s.definitions, e.entity = .message ∧ e.name = inner := by
  unfold kind? at h
  split at h
  case isTrue =>
    split at h
    case h_1 =>
      obtain rfl := Option.some.inj h
      exact nomatch hinner
    case h_2 => exact nomatch h
  case isFalse =>
    obtain ⟨e, he, rfl⟩ := Option.map_eq_some_iff.mp h
    obtain ⟨hmem, hwanted⟩ := Surroundings.resolve?_eq_some he
    rw [isFieldType, Bool.or_eq_true, beq_iff_eq, beq_iff_eq] at hwanted
    split at hinner
    case isTrue => exact nomatch hinner
    case isFalse hkind =>
      rw [beq_iff_eq] at hkind
      refine ⟨e, hmem, hwanted.resolve_right hkind, ?_⟩
      split at hinner <;> exact Option.some.inj hinner

theorem Field.link?_eq_some (h : d.link? s isProto3 scope rivals = some f) :
    d.kind? s (qualify scope d.name) = some f.kind ∧
      f = ⟨d.name, d.number, f.kind, d.repeated, d.isPacked isProto3 f.kind,
        d.hasPresence isProto3 f.kind, rivals, d.defaultValue⟩ := by
  obtain ⟨kind, hkind, h⟩ := Option.bind_eq_some_iff.mp h
  obtain rfl := Option.some.inj h
  exact ⟨hkind, rfl⟩

/-- Only values that can be written together are. -/
theorem Field.isPackable_of_link? (h : d.link? s isProto3 scope rivals = some f)
    (hpacked : f.packed = true) : f.kind.isPackable = true := by
  rw [(link?_eq_some h).2, isPacked, Bool.and_eq_true, Bool.and_eq_true] at hpacked
  exact hpacked.1.2

theorem Field.linkExtension?_eq_some (h : d.linkExtension? s isProto3 scope = some x) :
    d.extended? s scope = some x.extendee ∧ ∃ f, d.link? s isProto3 scope [] = some f ∧
      x.field = { f with hasPresence := !d.repeated } := by
  obtain ⟨extendee, hextendee, h⟩ := Option.bind_eq_some_iff.mp h
  obtain ⟨f, hf, h⟩ := Option.bind_eq_some_iff.mp h
  obtain rfl := Option.some.inj h
  exact ⟨hextendee, f, hf, rfl⟩

theorem Field.extended?_message {extendee : String} (h : d.extended? s scope = some extendee) :
    ∃ e ∈ s.definitions, e.entity = .message ∧ e.name = extendee := by
  obtain ⟨e, he, rfl⟩ := Option.map_eq_some_iff.mp h
  obtain ⟨hmem, hwanted⟩ := Surroundings.resolve?_eq_some he
  exact ⟨e, hmem, beq_iff_eq.mp hwanted, rfl⟩

end Descriptor

/-- A rival of a field is a field, and has the field for a rival. -/
theorem Pool.MessageFrom.rivals_symm {s : Surroundings}
    {kept : OptionBlock → Option (List UInt8)} {f : Descriptor.File}
    {m : String × Descriptor.Message} {t : Linked.MessageType} (hfrom : MessageFrom s kept f m t)
    {g : Linked.Field} (hg : g ∈ t.fields) {k : Nat} (hrival : k ∈ g.rivals) :
    ∃ g' ∈ t.fields, g'.number.toNat = k ∧ g.number.toNat ∈ g'.rivals := by
  obtain ⟨d, hd, hlink⟩ := exists_of_mem_right hfrom.fields hg
  rw [(Descriptor.Field.link?_eq_some hlink).2] at hrival ⊢
  simp only [Descriptor.Message.rivals] at hrival
  split at hrival
  case h_1 => exact absurd hrival List.not_mem_nil
  case h_2 i hi =>
    obtain ⟨e, he, rfl⟩ := List.mem_map.mp hrival
    obtain ⟨he, hshares⟩ := List.mem_filter.mp he
    rw [Bool.and_eq_true, beq_iff_eq, bne_iff_ne] at hshares
    obtain ⟨honeof, hnumber⟩ := hshares
    obtain ⟨g', hg', hlink'⟩ := exists_of_mem_right hfrom.fields.flip he
    refine ⟨g', hg', ?_⟩
    rw [(Descriptor.Field.link?_eq_some hlink').2]
    refine ⟨rfl, ?_⟩
    simp only [Descriptor.Message.rivals]
    rw [honeof, hi]
    refine List.mem_map.mpr ⟨d, List.mem_filter.mpr ⟨hd, ?_⟩, rfl⟩
    rw [Bool.and_eq_true, beq_iff_eq, bne_iff_ne]
    exact ⟨hi, hnumber.symm⟩

namespace CustomOptions

variable {files before after rest : List Descriptor.File} {f : Descriptor.File}
  {type inner name : String} {n : Nat} {g : Linked.Field} {x : Linked.Extension}

theorem skipped_eq_nil_of_append (h : (build (before ++ after)).skipped = []) :
    (build before).skipped = [] := by
  induction after using List.reverseRecOn with
  | nil => rwa [List.append_nil] at h
  | append_singleton after f ih =>
    rw [← List.append_assoc, build_concat, skipped_add, List.append_eq_nil_iff] at h
    exact ih h.1

theorem nodup_names_of_append (hnames : ((before ++ after).map (·.name)).Nodup) :
    (before.map (·.name)).Nodup := by
  rw [List.map_append] at hnames
  exact hnames.of_append_left

/-! ### Where fields come from -/

/-- A message of the pool is one of a file. -/
theorem messageFrom_of_mem {t : Linked.MessageType} (h : t ∈ (build files).pool.messages) :
    ∃ before f after m, files = before ++ f :: after ∧
      Pool.MessageFrom ((build before).pool.surroundingsOf f) ((build before).pool.kept? f) f m
        t := by
  obtain ⟨l, hl, ht⟩ := List.mem_flatMap.mp h
  obtain ⟨before, f, after, hfiles, hentered⟩ := entered_of_mem_files hl
  obtain ⟨m, -, hfrom⟩ := exists_of_mem_right hentered.fileFrom.messages ht
  exact ⟨before, f, after, m, hfiles, hfrom⟩

/-- An extension of the pool is one of a file. -/
theorem linkExtension?_of_mem (h : x ∈ (build files).pool.extensions) :
    ∃ before f after scope d, files = before ++ f :: after ∧
      Descriptor.Field.linkExtension? ((build before).pool.surroundingsOf f) f.isProto3 scope d =
        some x := by
  obtain ⟨l, hl, hx⟩ := List.mem_flatMap.mp h
  obtain ⟨before, f, after, hfiles, hentered⟩ := entered_of_mem_files hl
  obtain ⟨⟨scope, d⟩, -, hlink⟩ := exists_of_mem_right hentered.fileFrom.extensions hx
  exact ⟨before, f, after, scope, d, hfiles, hlink⟩

theorem mem_extensions_of_extensionOf? (h : (build files).pool.extensionOf? type n = some x) :
    x ∈ (build files).pool.extensions := by
  obtain ⟨r, -, hr⟩ := List.mem_filterMap.mp (List.mem_of_find?_eq_some h)
  split at hr
  case isTrue => exact List.mem_of_getElem? hr
  case isFalse => exact nomatch hr

/-- A field that the pool finds is one of a file, but for whether its absence is told. -/
theorem link?_of_field? (h : (build files).pool.types.field? type n = some g) :
    ∃ before f after scope d rivals linked, files = before ++ f :: after ∧
      Descriptor.Field.link? ((build before).pool.surroundingsOf f) f.isProto3 scope rivals d =
        some linked ∧ linked.kind = g.kind ∧ linked.packed = g.packed := by
  rcases Option.or_eq_some_iff.mp h with hdeclared | ⟨-, hextension⟩
  · obtain ⟨t, ht, hg⟩ := Option.bind_eq_some_iff.mp hdeclared
    obtain ⟨before, f, after, m, hfiles, hfrom⟩ := messageFrom_of_mem (List.mem_of_find?_eq_some ht)
    obtain ⟨d, -, hlink⟩ := exists_of_mem_right hfrom.fields (List.mem_of_find?_eq_some hg)
    exact ⟨before, f, after, m.1, d, _, g, hfiles, hlink, rfl, rfl⟩
  · obtain ⟨y, hy, rfl⟩ := Option.map_eq_some_iff.mp hextension
    obtain ⟨before, f, after, scope, d, hfiles, hlink⟩ :=
      linkExtension?_of_mem (mem_extensions_of_extensionOf? hy)
    obtain ⟨-, linked, hlinked, hfield⟩ := Descriptor.Field.linkExtension?_eq_some hlink
    exact ⟨before, f, after, scope, d, [], linked, hfiles, hlinked, by rw [hfield], by rw [hfield]⟩

theorem isPackable_of_packed (h : (build files).pool.types.field? type n = some g)
    (hpacked : g.packed = true) : g.kind.isPackable = true := by
  obtain ⟨before, f, after, scope, d, rivals, linked, -, hlink, hkind, hsame⟩ := link?_of_field? h
  rw [← hkind]
  exact Descriptor.Field.isPackable_of_link? hlink (hsame.trans hpacked)

/-! ### Members of one oneof -/

/-- Extensions are members of no oneof. -/
theorem rivals_eq_nil_of_extensionOf? (h : (build files).pool.extensionOf? type n = some x) :
    x.field.rivals = [] := by
  obtain ⟨before, f, after, scope, d, -, hlink⟩ :=
    linkExtension?_of_mem (mem_extensions_of_extensionOf? h)
  obtain ⟨-, linked, hlinked, hfield⟩ := Descriptor.Field.linkExtension?_eq_some hlink
  rw [hfield, (Descriptor.Field.link?_eq_some hlinked).2]

/-- Rivals are each other's. -/
theorem types_oneofs (files : List Descriptor.File) : (build files).pool.types.Oneofs where
  extension h := rivals_eq_nil_of_extensionOf? h
  symm {type j k f g} hf hg hrival := by
    rcases Option.or_eq_some_iff.mp hf with hdeclared | ⟨-, hextension⟩
    · obtain ⟨t, ht, hmem⟩ := Option.bind_eq_some_iff.mp hdeclared
      obtain ⟨before, file, after, m, -, hfrom⟩ :=
        messageFrom_of_mem (List.mem_of_find?_eq_some ht)
      obtain ⟨g', hg', hk, hsymm⟩ := hfrom.rivals_symm (List.mem_of_find?_eq_some hmem) hrival
      have hfound := Types.field?_of_mem (types_numbered files) ht hg'
      rw [hk] at hfound
      obtain rfl := Option.some.inj (hfound.symm.trans hg)
      rwa [Types.toNat_of_field? (types_numbered files) hf] at hsymm
    · obtain ⟨x, hx, rfl⟩ := Option.map_eq_some_iff.mp hextension
      rw [rivals_eq_nil_of_extensionOf? hx] at hrival
      exact absurd hrival List.not_mem_nil

/-! ### Pools that leave out nothing -/

/-- A file finds no names but those that the files define. -/
theorem mem_definitions_of_surroundings (hnames : ((before ++ f :: after).map (·.name)).Nodup)
    (hwhole : (build (before ++ f :: after)).skipped = []) {d : Definition}
    (hd : d ∈ ((build before).pool.surroundingsOf f).definitions) :
    d ∈ (before ++ f :: after).flatMap (·.definitions) := by
  rw [Pool.surroundingsOf, (definitions_eq_and_agree (nodup_names_of_append hnames)
    (skipped_eq_nil_of_append hwhole)).2.1, List.mem_append] at hd
  rw [List.flatMap_append, List.flatMap_cons]
  rcases hd with hd | hd
  · exact List.mem_append_left _ hd
  · exact List.mem_append_right _ (List.mem_append_left _ hd)

section Whole

variable (hnames : (files.map (·.name)).Nodup) (hwhole : (build files).skipped = [])
include hnames hwhole

/-- What is defined as a message is a message of the pool. -/
theorem knows_message {d : Definition} (hd : d ∈ files.flatMap (·.definitions))
    (hmessage : d.entity = .message) :
    ((build files).pool.types.message? d.name).isSome := by
  obtain ⟨f, hf, hd⟩ := List.mem_flatMap.mp hd
  obtain ⟨m, hm, hname⟩ := List.mem_map.mp
    (Descriptor.File.mem_messageTypes_of_mem_definitions hd hmessage)
  obtain ⟨l, hl, hentered⟩ := exists_of_mem_right (forall₂_enters hnames hwhole).flip hf
  obtain ⟨t, ht, hfrom⟩ := exists_of_mem_right hentered.fileFrom.messages.flip hm
  refine List.find?_isSome.mpr ⟨t, List.mem_flatMap.mpr ⟨l, hl, ht⟩, ?_⟩
  rw [beq_iff_eq, hfrom.fullName, hname]

/-- A message that a name of a file is resolved to is a message of the pool. -/
theorem knows_message_of_surroundings (hfiles : files = before ++ f :: after) {e : Definition}
    (he : e ∈ ((build before).pool.surroundingsOf f).definitions) (hmessage : e.entity = .message) :
    ((build files).pool.types.message? e.name).isSome := by
  subst hfiles
  exact knows_message hnames hwhole (mem_definitions_of_surroundings hnames hwhole he) hmessage

/-- The messages that fields hold are messages of the pool. -/
theorem knows_held_message (h : (build files).pool.types.field? type n = some g)
    (hinner : g.kind.message? = some inner) :
    ((build files).pool.types.message? inner).isSome := by
  obtain ⟨before, f, after, scope, d, rivals, linked, hfiles, hlink, hkind, -⟩ := link?_of_field? h
  rw [← hkind] at hinner
  obtain ⟨e, he, hmessage, rfl⟩ :=
    Descriptor.Field.kind?_message (Descriptor.Field.link?_eq_some hlink).1 hinner
  exact knows_message_of_surroundings hnames hwhole hfiles he hmessage

/-- The messages that extensions extend are messages of the pool. -/
theorem knows_extended_message (hx : x ∈ (build files).pool.extensions) :
    ((build files).pool.types.message? x.extendee).isSome := by
  obtain ⟨before, f, after, scope, d, hfiles, hlink⟩ := linkExtension?_of_mem hx
  obtain ⟨e, he, hmessage, hname⟩ := Descriptor.Field.extended?_message
    (Descriptor.Field.linkExtension?_eq_some hlink).1
  rw [← hname]
  exact knows_message_of_surroundings hnames hwhole hfiles he hmessage

end Whole

/-! ### More files -/

theorem messages_grow (files rest : List Descriptor.File) :
    (build files).pool.messages <+: (build (files ++ rest)).pool.messages := by
  obtain ⟨later, hlater⟩ := files_prefix files rest
  rw [Pool.messages, Pool.messages, ← hlater, List.flatMap_append]
  exact List.prefix_append _ _

theorem extensions_grow (files rest : List Descriptor.File) :
    (build files).pool.extensions <+: (build (files ++ rest)).pool.extensions := by
  obtain ⟨later, hlater⟩ := files_prefix files rest
  rw [Pool.extensions, Pool.extensions, ← hlater, List.flatMap_append]
  exact List.prefix_append _ _

theorem message?_append (rest : List Descriptor.File) {t : Linked.MessageType}
    (h : (build files).pool.types.message? name = some t) :
    (build (files ++ rest)).pool.types.message? name = some t :=
  (messages_grow files rest).find?_eq_some h

section Append

variable (hnames : ((files ++ rest).map (·.name)).Nodup)
  (hwhole : (build (files ++ rest)).skipped = [])
include hnames hwhole

theorem field?_append (h : (build files).pool.types.field? type n = some g) :
    (build (files ++ rest)).pool.types.field? type n = some g := by
  rcases Option.or_eq_some_iff.mp h with hdeclared | ⟨hnone, hextension⟩
  · obtain ⟨t, ht, hg⟩ := Option.bind_eq_some_iff.mp hdeclared
    rw [Types.field?, Types.declared?, message?_append rest ht, Option.bind_some, hg,
      Option.some_or]
  · obtain ⟨x, hx, rfl⟩ := Option.map_eq_some_iff.mp hextension
    have hbefore := nodup_names_of_append hnames
    have hearlier := skipped_eq_nil_of_append hwhole
    have hfound : (build files).pool.extensionOf? type n = some x := hx
    rw [extensionOf?_eq hbefore hearlier] at hfound
    have hlater : (build (files ++ rest)).pool.types.extensionOf? type n = some x := by
      refine Eq.trans (extensionOf?_eq hnames hwhole type n) ?_
      exact (extensions_grow files rest).find?_eq_some hfound
    -- the message is known already, so no file can declare the number of the extension in it
    have hextendee : x.extendee = type := by
      have hmatches := List.find?_some hfound
      rw [Bool.and_eq_true, beq_iff_eq] at hmatches
      exact hmatches.1
    obtain ⟨t, ht⟩ := Option.isSome_iff_exists.mp
      (knows_extended_message hbefore hearlier (List.mem_of_find?_eq_some hfound))
    rw [hextendee] at ht
    rw [Types.declared?, ht, Option.bind_some] at hnone
    rw [Types.field?, Types.declared?, message?_append rest ht, Option.bind_some, hnone,
      Option.none_or, hlater, Option.map_some]

/-- With more files a pool grows. -/
theorem grows_append : (build files).pool.types.Grows (build (files ++ rest)).pool.types where
  field? := field?_append hnames hwhole
  message? {type n g inner} hg hinner := by
    obtain ⟨t, ht⟩ := Option.isSome_iff_exists.mp (knows_held_message
      (nodup_names_of_append hnames) (skipped_eq_nil_of_append hwhole) hg hinner)
    rw [ht, message?_append rest ht]
  packed := isPackable_of_packed

end Append

end CustomOptions

end GoBindings
