/-
  GoBindings/Proofs/DistinctLiterals.lean
  =======================================
  **Literals end where they should, and tell texts apart.**

  Every quote and every backslash of a text stands behind a backslash in its literal. So the
  first quote that is not escaped is the one that closes the literal (`closing?_literal`).

  What a program sees of a character also tells where the next character begins
  (`seen_append_inj`). The first byte decides: a control character behind ASCII is seen as
  one byte, and no UTF-8 form begins with that byte. Bytes are thus cut into characters in
  one way only, and different runtime names are different for the program, too.
-/
import GoBindings.Proofs.Bindings
import GoBindings.Proofs.Literals
import GoBindings.Proofs.OperationNames

namespace GoBindings.Go.Literal

/-! ### Where a literal ends -/

/-- How many characters stand in front of the first quote that is not escaped. A backslash
    escapes the character behind it. -/
def closing? (escaped : Bool) : List Char → Option Nat
  | [] => none
  | c :: rest =>
    if escaped then (closing? false rest).map (· + 1)
    else if c = '"' then some 0
    else (closing? (c == '\\') rest).map (· + 1)

theorem closing?_plain {c : Char} (hquote : c ≠ '"') (hbackslash : c ≠ '\\')
    (rest : List Char) : closing? false (c :: rest) = (closing? false rest).map (· + 1) := by
  rw [closing?, if_neg (by decide), if_neg hquote, beq_false_of_ne hbackslash]

theorem closing?_escaped (e : Char) (rest : List Char) :
    closing? false ('\\' :: e :: rest) = (closing? false rest).map (· + 2) := by
  have hbackslash : closing? false ('\\' :: e :: rest) =
      (closing? true (e :: rest)).map (· + 1) := rfl
  rw [hbackslash, closing?, if_pos rfl, Option.map_map]
  rfl

theorem hexDigit_spec {d : Nat} (h : d < 16) :
    hexDigit d ≠ '"' ∧ hexDigit d ≠ '\\' ∧ isControl (hexDigit d) = false := by
  have hall : ∀ d : Fin 16, hexDigit d ≠ '"' ∧ hexDigit d ≠ '\\' ∧
      isControl (hexDigit d) = false := by decide
  exact hall ⟨d, h⟩

/-- A scan passes over a character that has been written. -/
theorem closing?_escape (c : Char) (rest : List Char) :
    closing? false (escape c ++ rest) =
      (closing? false rest).map (· + (escape c).length) := by
  unfold escape
  split_ifs with hquote hbackslash hfeed hreturn htab hcontrol
  · exact closing?_escaped _ rest
  · exact closing?_escaped _ rest
  · exact closing?_escaped _ rest
  · exact closing?_escaped _ rest
  · exact closing?_escaped _ rest
  · -- the backslash escapes the `x`, and the digits stand for themselves
    have hcode := toNat_lt_of_isControl hcontrol
    obtain ⟨hhigh, hhigh', -⟩ := hexDigit_spec (d := c.toNat / 16) (by omega)
    obtain ⟨hlow, hlow', -⟩ := hexDigit_spec (d := c.toNat % 16) (by omega)
    simp only [List.cons_append, List.nil_append]
    rw [closing?_escaped, closing?_plain hhigh hhigh', closing?_plain hlow hlow',
      Option.map_map, Option.map_map]
    rfl
  · exact closing?_plain hquote hbackslash rest

theorem closing?_flatMap_escape (cs rest : List Char) :
    closing? false (cs.flatMap escape ++ rest) =
      (closing? false rest).map (· + (cs.flatMap escape).length) := by
  induction cs with
  | nil => exact Option.map_id'.symm
  | cons c cs ih =>
    rw [List.flatMap_cons, List.append_assoc, closing?_escape, ih, Option.map_map]
    congr 1
    funext n
    simp only [Function.comp_apply, List.length_append]
    omega

/-- Whatever follows a literal, the quote that ends it is the first one that is not escaped. -/
theorem closing?_literal (s : String) (rest : List Char) :
    closing? false (s.toList.flatMap escape ++ '"' :: rest) =
      some (s.toList.flatMap escape).length := by
  rw [closing?_flatMap_escape, closing?, if_neg (by decide), if_pos rfl, Option.map_some,
    Nat.zero_add]

theorem isControl_escape (c : Char) : ∀ d ∈ escape c, isControl d = false := by
  have hall : ∀ l : List Char, (l.all fun d => !isControl d) = true →
      ∀ d ∈ l, isControl d = false := by
    intro l hl d hd
    exact Bool.not_eq_true' _ ▸ List.all_eq_true.mp hl d hd
  unfold escape
  split_ifs with _ _ _ _ _ hcontrol
  · exact hall _ (by decide)
  · exact hall _ (by decide)
  · exact hall _ (by decide)
  · exact hall _ (by decide)
  · exact hall _ (by decide)
  · have hcode := toNat_lt_of_isControl hcontrol
    have hhigh := (hexDigit_spec (d := c.toNat / 16) (by omega)).2.2
    have hlow := (hexDigit_spec (d := c.toNat % 16) (by omega)).2.2
    refine hall _ ?_
    simp only [List.all_cons, hhigh, hlow]
    decide
  · rw [List.forall_mem_singleton]
    exact Bool.eq_false_iff.mpr hcontrol

theorem isControl_of_mem_literal {s : String} {c : Char} (h : c ∈ (literal s).toList) :
    isControl c = false := by
  rw [literal, String.toList_ofList, List.cons_append, List.mem_cons, List.mem_append,
    List.mem_singleton] at h
  rcases h with rfl | hbody | rfl
  · decide
  · obtain ⟨d, -, hd⟩ := List.mem_flatMap.mp hbody
    exact isControl_escape d c hd
  · decide

/-! ### What bytes stand for -/

/-- The UTF-8 form of a character tells the character, whatever follows it. -/
theorem utf8EncodeChar_append_inj {c d : Char} {xs ys : List UInt8}
    (h : String.utf8EncodeChar c ++ xs = String.utf8EncodeChar d ++ ys) : c = d := by
  have hdecode := congrArg (fun bytes : List UInt8 => bytes.toByteArray.utf8DecodeChar? 0) h
  simp only [List.toByteArray_append, ByteArray.utf8DecodeChar?_utf8EncodeChar_append] at hdecode
  exact Option.some.inj hdecode

theorem utf8EncodeChar_eq_cons (c : Char) :
    ∃ b rest, String.utf8EncodeChar c = b :: rest ∧ b.IsUTF8FirstByte := by
  have hlength : 0 < (String.utf8EncodeChar c).length := by
    rw [String.length_utf8EncodeChar]
    exact c.utf8Size_pos
  refine ⟨(String.utf8EncodeChar c)[0], (String.utf8EncodeChar c).drop 1, ?_, ?_⟩
  · exact (List.getElem_cons_drop hlength).symm
  · exact UInt8.isUTF8FirstByte_getElem_utf8EncodeChar.mpr rfl

/-- The byte for a control character behind ASCII begins no UTF-8 form. -/
theorem not_isUTF8FirstByte_of_isLateControl {c : Char} (h : IsLateControl c) :
    ¬ (UInt8.ofNat c.toNat).IsUTF8FirstByte := by
  have hall : ∀ n : Fin 32, ¬ (UInt8.ofNat (0x80 + n.val)).IsUTF8FirstByte := by decide
  obtain ⟨hlow, hhigh⟩ := h
  have hcode : 0x80 + (c.toNat - 0x80) = c.toNat := by omega
  have hbyte := hall ⟨c.toNat - 0x80, by omega⟩
  rwa [hcode] at hbyte

theorem seen_ne_of_isLateControl {c d : Char} {xs ys : List UInt8} (hc : IsLateControl c)
    (hd : ¬ IsLateControl d) : seen c ++ xs ≠ seen d ++ ys := by
  intro h
  obtain ⟨b, rest, hbytes, hfirst⟩ := utf8EncodeChar_eq_cons d
  rw [seen, if_pos hc, seen, if_neg hd, hbytes] at h
  obtain ⟨rfl, -⟩ := List.cons.inj h
  exact not_isUTF8FirstByte_of_isLateControl hc hfirst

/-- What is seen of a character tells the character, and so where the rest begins. -/
theorem seen_append_inj {c d : Char} {xs ys : List UInt8} (h : seen c ++ xs = seen d ++ ys) :
    c = d ∧ xs = ys := by
  have hchar : c = d := by
    by_cases hc : IsLateControl c
    · by_cases hd : IsLateControl d
      · rw [seen, if_pos hc, seen, if_pos hd] at h
        have hbyte := congrArg UInt8.toNat (List.cons.inj h).1
        have hcmax : c.toNat < 256 := Nat.lt_of_le_of_lt hc.2 (by decide)
        have hdmax : d.toNat < 256 := Nat.lt_of_le_of_lt hd.2 (by decide)
        rw [UInt8.toNat_ofNat_of_lt' hcmax, UInt8.toNat_ofNat_of_lt' hdmax] at hbyte
        exact Char.toNat_inj.mp hbyte
      · exact absurd h (seen_ne_of_isLateControl hc hd)
    · by_cases hd : IsLateControl d
      · exact absurd h.symm (seen_ne_of_isLateControl hd hc)
      · rw [seen, if_neg hc, seen, if_neg hd] at h
        exact utf8EncodeChar_append_inj h
  subst hchar
  exact ⟨rfl, List.append_cancel_left h⟩

theorem seen_ne_nil (c : Char) : seen c ≠ [] := by
  by_cases hc : IsLateControl c
  · rw [seen, if_pos hc]
    exact List.cons_ne_nil _ _
  · obtain ⟨b, rest, hbytes, -⟩ := utf8EncodeChar_eq_cons c
    rw [seen, if_neg hc, hbytes]
    exact List.cons_ne_nil _ _

theorem flatMap_seen_injective {cs ds : List Char} (h : cs.flatMap seen = ds.flatMap seen) :
    cs = ds := by
  induction cs generalizing ds with
  | nil =>
    cases ds with
    | nil => rfl
    | cons d ds => exact absurd (List.append_eq_nil_iff.mp h.symm).1 (seen_ne_nil d)
  | cons c cs ih =>
    cases ds with
    | nil => exact absurd (List.append_eq_nil_iff.mp h).1 (seen_ne_nil c)
    | cons d ds =>
      rw [List.flatMap_cons, List.flatMap_cons] at h
      obtain ⟨rfl, hrest⟩ := seen_append_inj h
      rw [ih hrest]

/-- Literals that denote the same bytes are literals of one text. -/
theorem denote?_literal_injective : Function.Injective fun s => denote? (literal s) := by
  intro s t h
  simp only [denote?_literal] at h
  exact String.toList_inj.mp (flatMap_seen_injective (Option.some.inj h))

end GoBindings.Go.Literal

namespace GoBindings

open Go.Literal (closing? denote? isControl)

/-- Operations that a service names together have constants of different bytes. -/
theorem Service.nodup_denotations {s : Service} {settings : Settings} {n : NamedService}
    (h : (s.resolve settings).outcome = .ok n) :
    (n.operations.map fun op => denote? (Go.literal op.names.operationName)).Nodup := by
  obtain ⟨hnameable, rfl⟩ := resolve_eq_ok_iff.mp h
  have hbytes := hnameable.runtime.map Go.Literal.denote?_literal_injective
  rw [List.map_map] at hbytes
  rw [named, List.map_map]
  exact hbytes

theorem Environment.exists_resolve_of_draft {env : Environment} {f : Descriptor.File} {d : Draft}
    (h : (env.draft f).outcome = .ok (some d)) :
    ∀ n ∈ d.services, ∃ s : Service, (s.resolve env.settings).outcome = .ok n := by
  obtain ⟨services, -, h⟩ := Traced.outcome_bind_eq_ok.mp h
  split at h
  case isTrue => exact nomatch h
  case isFalse =>
    obtain ⟨name, -, h⟩ := Traced.outcome_bind_eq_ok.mp h
    obtain ⟨named, hnamed, h⟩ := Traced.outcome_bind_eq_ok.mp h
    obtain ⟨hnameable, rfl⟩ := nameServices_eq_ok_iff.mp hnamed
    rw [← Option.some.inj (Except.ok.inj h)]
    intro n hn
    obtain ⟨s, hs, rfl⟩ := List.mem_map.mp hn
    exact ⟨s, Service.resolve_eq_ok_iff.mpr ⟨hnameable s hs, rfl⟩⟩

theorem Document.constantLine_mem_lines {d : Document} {s : BoundService} (hs : s ∈ d.services)
    {op : BoundOperation} (hop : op ∈ s.operations) :
    constantLine op.names.operationNameConst op.names.operationName ∈ d.lines := by
  have hconstant : constantLine op.names.operationNameConst op.names.operationName ∈
      s.operations.flatMap (operationConstant s) := by
    refine List.mem_flatMap.mpr ⟨op, hop, ?_⟩
    simp [operationConstant]
  have hservice : constantLine op.names.operationNameConst op.names.operationName ∈
      serviceLines d.framework s := by
    simp only [serviceLines, List.mem_append]
    exact .inl (.inl (.inl (.inr hconstant)))
  exact List.mem_append_right _ (List.mem_flatMap.mpr ⟨s, hs, hservice⟩)

namespace Request

theorem nodup_denotations_of_mem_published {request : Request} {p : Environment.Publication}
    (hp : p ∈ request.published) {s : BoundService} (hs : s ∈ p.document.services) :
    (s.operations.map fun op => denote? (Go.literal op.names.operationName)).Nodup := by
  obtain ⟨env, -, -, hpublished, -, hwritten⟩ := written_of_mem_published hp
  obtain ⟨target, -, hpublication⟩ := Environment.exists_of_mem_published hpublished
  obtain ⟨-, hdraft, -⟩ := Environment.publication?_ok hpublication
  -- the service is one of the draft, with its types filled in
  rw [congrArg Document.services hwritten.document] at hs
  obtain ⟨n, hn, rfl⟩ := List.mem_map.mp hs
  obtain ⟨service, hresolve⟩ := Environment.exists_resolve_of_draft hdraft n hn
  have hnodup := Service.nodup_denotations hresolve
  rw [NamedService.bind, List.map_map]
  exact hnodup

/-- Every text has a literal with no control character in it, which a scan that passes over
    escaped characters leaves at its last quote, whatever stands behind. Literals of different
    texts denote different bytes. So the constants for the operations of a service differ as
    the runtime names do, also in a returned file. -/
theorem constants_distinct :
    (∀ s, (∀ c ∈ (Go.literal s).toList, isControl c = false) ∧
        ∃ body, (Go.literal s).toList = '"' :: (body ++ ['"']) ∧
          ∀ rest, closing? false (body ++ '"' :: rest) = some body.length) ∧
      (∀ s t, s ≠ t → ∃ bytes bytes', denote? (Go.literal s) = some bytes ∧
        denote? (Go.literal t) = some bytes' ∧ bytes ≠ bytes') ∧
      (∀ (service : Service) (settings : Settings) (named : NamedService),
        (service.resolve settings).outcome = .ok named →
          (named.operations.map fun op => denote? (Go.literal op.names.operationName)).Nodup) ∧
      ∀ (request : Request) (response : Response), (generate request).outcome = .ok response →
        (response.files = request.published.map fun p =>
            ⟨some p.draft.name, none, some (Text.unlines p.document.lines)⟩) ∧
          ∀ p ∈ request.published, ∀ s ∈ p.document.services,
            (∀ op ∈ s.operations, "const " ++ op.names.operationNameConst ++ " = "
                ++ Go.literal op.names.operationName ∈ p.document.lines) ∧
              (s.operations.map fun op => denote? (Go.literal op.names.operationName)).Nodup := by
  refine ⟨?_, ?_, ?_, ?_⟩
  · intro s
    refine ⟨fun c hc => Go.Literal.isControl_of_mem_literal hc,
      s.toList.flatMap Go.Literal.escape, ?_, Go.Literal.closing?_literal s⟩
    rw [Go.literal, String.toList_ofList, List.cons_append]
  · intro s t hne
    refine ⟨_, _, Go.Literal.denote?_literal s, Go.Literal.denote?_literal t, ?_⟩
    intro hbytes
    exact hne (String.toList_inj.mp (Go.Literal.flatMap_seen_injective hbytes))
  · intro service settings named h
    exact Service.nodup_denotations h
  · intro request response hresponse
    refine ⟨files_eq_published hresponse, ?_⟩
    intro p hp s hs
    refine ⟨?_, nodup_denotations_of_mem_published hp hs⟩
    intro op hop
    exact Document.constantLine_mem_lines hs hop

/-- An operation that is named by one control character, and one by the text of its escape. -/
def escapedNames : Service where
  fullName := "shop.Shop"
  name := "Shop"
  package := "shop"
  file := "shop.proto"
  chosenName := none
  operations :=
    [⟨"Buy", ".shop.Cart", ".shop.Cart", some "\u0085"⟩,
      ⟨"Sell", ".shop.Cart", ".shop.Cart", some "\\x85"⟩]

/-- The same shop as a request, with operations that are named after their methods. -/
def namedShop : Request where
  targets := ["shop.proto"]
  parameter := none
  compilerVersion := none
  files := [sampleFile "shop.proto" "shop" "example.com/shop" ["Cart"]
    [("Shop", [("Buy", ".shop.Cart"), ("Sell", ".shop.Cart")])]]

theorem constants_distinct_shop :
    "\u0085" ≠ "\\x85" ∧
      (∃ bytes bytes', denote? (Go.literal "\u0085") = some bytes ∧
        denote? (Go.literal "\\x85") = some bytes' ∧ bytes ≠ bytes') ∧
      (∃ named, (escapedNames.resolve .standard).outcome = .ok named ∧
        named.operations.map (Go.literal ·.names.operationName) =
          ["\"\\x85\"", "\"\\\\x85\""] ∧
        (named.operations.map fun op => denote? (Go.literal op.names.operationName)).Nodup) ∧
      (∃ response, (generate namedShop).outcome = .ok response) ∧
      (namedShop.published.map fun p => p.document.services.map fun s =>
        s.operations.map (·.names.operationName)) = [[["Buy", "Sell"]]] ∧
      ∀ p ∈ namedShop.published, ∀ s ∈ p.document.services,
        (s.operations.map fun op => denote? (Go.literal op.names.operationName)).Nodup := by
  obtain ⟨-, hbytes, hnamed, hfiles⟩ := constants_distinct
  have hne : "\u0085" ≠ "\\x85" := by decide
  have hresolve : (escapedNames.resolve .standard).outcome =
      .ok (escapedNames.named .standard) := by
    decide +kernel
  have houtcome := generate_outcome_of_isOk (by decide +kernel : namedShop.environment?.isOk)
  refine ⟨hne, hbytes _ _ hne, ⟨_, hresolve, by decide +kernel, hnamed _ _ _ hresolve⟩,
    ⟨_, houtcome⟩, by decide +kernel, ?_⟩
  intro p hp s hs
  exact ((hfiles _ _ houtcome).2 p hp s hs).2

end Request

end GoBindings
