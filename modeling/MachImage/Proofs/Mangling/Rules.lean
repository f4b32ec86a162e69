import MachImage.Mangling
import MachImage.Proofs.Mangling.Names

/-! # A demangler and its rules

`Mangling.demangle?` keeps the rules that are stated of demanglers by the form of names alone.
It reads counted elements as `Counts` says (`Legacy.elements?_eq_some_iff`), so that it
`readsNestedNames`, and the marks of both manglings are found behind any of the underscores
(`readAny?_underscore`), so that it `ignoresUnderscores`.

The mark and number of a copy are dropped before a name is read.  They start with a point, and
what is in front of them stays as it is (`withoutCopyNumber_append`). -/

namespace MachImage.Mangling

/-! ### Marks of copies -/

theorem copyMark_eq : copyMark = '.' :: "llvm.".toList := by
  decide

/-- Every mark starts with a point. -/
theorem splitAtCopyMark_cons {c : Char} (h : c ≠ '.') (rest : List Char) :
    splitAtCopyMark (c :: rest) =
      (splitAtCopyMark rest).map fun (before, behind) => (c :: before, behind) := by
  have hmark : copyMark.isPrefixOf (c :: rest) = false := by
    rw [copyMark_eq, List.isPrefixOf, beq_false_of_ne h.symm, Bool.false_and]
  rw [splitAtCopyMark, hmark]
  rfl

theorem withoutCopyNumber_cons {c : Char} (h : c ≠ '.') (rest : List Char) :
    withoutCopyNumber (c :: rest) = c :: withoutCopyNumber rest := by
  unfold withoutCopyNumber
  rw [splitAtCopyMark_cons h]
  cases splitAtCopyMark rest with
  | none => rfl
  | some parts =>
      obtain ⟨before, behind⟩ := parts
      dsimp only [Option.map_some]
      split <;> rfl

/-- What stands in front of the first point is not part of a copy's number. -/
theorem withoutCopyNumber_append {front : List Char} (h : '.' ∉ front)
    (behind : List Char) :
    withoutCopyNumber (front ++ behind) = front ++ withoutCopyNumber behind := by
  induction front with
  | nil => rfl
  | cons c rest ih =>
      obtain ⟨hc, hrest⟩ := not_or.mp (mt List.mem_cons.mpr h)
      rw [List.cons_append, withoutCopyNumber_cons (Ne.symm hc), ih hrest, List.cons_append]

theorem eq_append_of_splitAtCopyMark {name before behind : List Char}
    (h : splitAtCopyMark name = some (before, behind)) : name = before ++ (copyMark ++ behind) := by
  induction name generalizing before with
  | nil => cases h
  | cons c rest ih =>
      rw [splitAtCopyMark] at h
      split at h
      · next hmark =>
        cases h
        obtain ⟨behind, hbehind⟩ := List.isPrefixOf_iff_prefix.mp hmark
        rw [← hbehind, List.drop_left, List.nil_append]
      · obtain ⟨⟨before, behind⟩, hrest, hparts⟩ := Option.map_eq_some_iff.mp h
        cases hparts
        rw [ih hrest, List.cons_append]

/-- What is dropped from a name is a word behind a point. -/
theorem exists_eq_withoutCopyNumber_append (name : List Char) :
    ∃ dropped, name = withoutCopyNumber name ++ dropped ∧
      (dropped = [] ∨ dropped.head? = some '.') := by
  unfold withoutCopyNumber
  cases h : splitAtCopyMark name with
  | none => exact ⟨[], by simp, .inl rfl⟩
  | some parts =>
      obtain ⟨before, behind⟩ := parts
      dsimp only
      split
      · exact ⟨copyMark ++ behind, eq_append_of_splitAtCopyMark h, .inr (by rw [copyMark_eq]; rfl)⟩
      · exact ⟨[], by simp, .inl rfl⟩

/-! ### Counted elements -/

namespace Legacy

variable {text suffix : List Char} {elements : List (List Char)}

theorem elements?_of_counts (h : Counts text elements suffix) :
    elements? text = some (elements, suffix) := by
  induction h with
  | close suffix => rw [elements?, if_pos rfl]
  | @element digits element behind _ _ hdigits hlength hend hbehind ih =>
      obtain ⟨digit, digits, rfl⟩ := List.exists_cons_of_ne_nil hdigits.1
      obtain ⟨hfirst, hrest⟩ := List.forall_mem_cons.mp hdigits.2
      have hE : digit ≠ 'E' := by
        rintro rfl
        cases hfirst
      obtain ⟨first, rest, hstart⟩ : ∃ first rest, element ++ behind = first :: rest :=
        List.exists_cons_of_ne_nil (by simp [hbehind.ne_nil])
      have hnot : ¬ first.isDigit = true := by simp [hend first (by rw [hstart]; rfl)]
      have htake : (digits ++ (element ++ behind)).takeWhile Char.isDigit = digits := by
        rw [hstart, List.takeWhile_append_of_pos hrest, List.takeWhile_cons_of_neg hnot,
          List.append_nil]
      have hdrop : (digits ++ (element ++ behind)).dropWhile Char.isDigit = element ++ behind := by
        rw [hstart, List.dropWhile_append_of_pos hrest, List.dropWhile_cons_of_neg hnot]
      have hdecimal : decimal (digit :: digits) = element.length := hlength
      have hempty : behind.isEmpty = false := List.isEmpty_eq_false_iff.mpr hbehind.ne_nil
      rw [List.cons_append, elements?, if_neg hE, if_pos hfirst]
      simp only [htake, hdrop, hdecimal, List.drop_left, List.take_left, hempty, ih]
      rfl

theorem counts_of_elements? (h : elements? text = some (elements, suffix)) :
    Counts text elements suffix := by
  fun_induction elements? text generalizing elements with
  | case1 => cases h
  | case2 rest =>
      cases h
      exact .close suffix
  | case3 c rest hE hdigit length behind hempty => cases h
  | case4 c rest hE hdigit length text behind hempty =>
      rename_i ih
      obtain ⟨⟨others, suffix'⟩, hothers, hparts⟩ := Option.bind_eq_some_iff.mp h
      cases hparts
      have hdigits : ∀ d ∈ c :: rest.takeWhile Char.isDigit, d.isDigit :=
        List.forall_mem_cons.mpr ⟨hdigit, fun d hd => List.mem_takeWhile_imp hd⟩
      have hsplit : text.take length ++ behind = text := List.take_append_drop length text
      have hname : c :: rest =
          (c :: rest.takeWhile Char.isDigit) ++ (text.take length ++ behind) := by
        rw [hsplit, List.cons_append, List.takeWhile_append_dropWhile]
      have hlength : (text.take length).length = length := by
        have hne := List.length_pos_iff.mpr fun h => hempty (List.isEmpty_iff.mpr h)
        rw [List.length_drop] at hne
        rw [List.length_take]
        omega
      have hend : ∀ d ∈ (text.take length ++ behind).head?, d.isDigit = false := by
        intro d hd
        rw [hsplit] at hd
        have hstop := List.head?_dropWhile_not Char.isDigit rest
        rw [Option.mem_def.mp hd] at hstop
        simpa using hstop
      rw [hname]
      exact .element ⟨List.cons_ne_nil _ _, hdigits⟩ hlength.symm hend (ih hothers)
  | case5 c rest hE hdigit => cases h

theorem elements?_eq_some_iff :
    elements? text = some (elements, suffix) ↔ Counts text elements suffix :=
  ⟨counts_of_elements?, elements?_of_counts⟩

theorem toNat_lt_of_isWordChar {c : Char} (h : isWordChar c) : c.toNat < 0x80 := by
  have hbound {high : UInt32} (hhigh : high.toNat < 0x80) (hc : c.val ≤ high) : c.toNat < 0x80 :=
    Nat.lt_of_le_of_lt (UInt32.le_iff_toNat_le.mp hc) hhigh
  rcases Bool.or_eq_true_iff.mp h with hword | hunderscore
  · rcases Bool.or_eq_true_iff.mp hword with hletter | hdigit
    · rcases Bool.or_eq_true_iff.mp hletter with hupper | hlower
      · exact hbound (by decide : 'Z'.val.toNat < 0x80) (of_decide_eq_true hupper).2
      · exact hbound (by decide : 'z'.val.toNat < 0x80)
          (of_decide_eq_true (Bool.and_eq_true_iff.mp hlower).2)
    · exact hbound (by decide : '9'.val.toNat < 0x80)
        (of_decide_eq_true (Bool.and_eq_true_iff.mp hdigit).2)
  · obtain rfl := of_decide_eq_true hunderscore
    decide

theorem read?_of_mem_nestedMarks {mark : List Char} (hmark : mark ∈ Demangler.nestedMarks)
    (behind : List Char) :
    read? (mark ++ behind) =
      if behind.all fun c => c.toNat < 0x80 then elements? behind else none := by
  simp only [Demangler.nestedMarks, List.mem_cons, List.not_mem_nil, or_false] at hmark
  obtain rfl | rfl | rfl := hmark <;> rfl

end Legacy

/-! ### The rules -/

theorem isSome_demangle? (name : String) : (demangle? name).isSome = (read? name).isSome :=
  Option.isSome_map

theorem isSome_read?_iff {name : List Char} :
    (read? (String.ofList name)).isSome ↔
      ∃ mangled suffix, readAny? (withoutCopyNumber name) = some (mangled, suffix) ∧
        isSuffix suffix = true := by
  rw [read?, String.toList_ofList, Option.isSome_filter, Option.any_eq_true]
  exact ⟨fun ⟨⟨mangled, suffix⟩, h⟩ => ⟨mangled, suffix, h⟩,
    fun ⟨mangled, suffix, h⟩ => ⟨(mangled, suffix), h⟩⟩

/-- The newer mangling is never tried behind a mark of the older one. -/
theorem readAny?_of_mem_nestedMarks {mark : List Char} (hmark : mark ∈ Demangler.nestedMarks)
    (behind : List Char) :
    readAny? (mark ++ behind) = (Legacy.read? (mark ++ behind)).map fun (elements, suffix) =>
      (.legacy elements, suffix) := by
  have hV0 : V0.read? (mark ++ behind) = none := by
    simp only [Demangler.nestedMarks, List.mem_cons, List.not_mem_nil, or_false] at hmark
    obtain rfl | rfl | rfl := hmark <;> rfl
  rw [readAny?, hV0]
  cases Legacy.read? (mark ++ behind) <;> rfl

theorem point_notMem_of_mem_nestedMarks : ∀ mark ∈ Demangler.nestedMarks, '.' ∉ mark := by
  decide

/-- A name with a mark of nested names is accepted by what stands behind the mark. -/
theorem isSome_demangle?_mark_iff {mark : List Char} (hmark : mark ∈ Demangler.nestedMarks)
    (behind : List Char) :
    (demangle? (String.ofList (mark ++ behind))).isSome ↔
      (∀ c ∈ withoutCopyNumber behind, c.toNat < 0x80) ∧
        ∃ elements suffix, Counts (withoutCopyNumber behind) elements suffix ∧
          isSuffix suffix = true := by
  rw [isSome_demangle?, isSome_read?_iff,
    withoutCopyNumber_append (point_notMem_of_mem_nestedMarks mark hmark),
    readAny?_of_mem_nestedMarks hmark, Legacy.read?_of_mem_nestedMarks hmark]
  by_cases hascii : ∀ c ∈ withoutCopyNumber behind, c.toNat < 0x80
  · rw [if_pos (List.all_eq_true.mpr fun c hc => decide_eq_true (hascii c hc))]
    constructor
    · rintro ⟨mangled, suffix, hread, hsuffix⟩
      obtain ⟨⟨elements, _⟩, helements, hparts⟩ := Option.map_eq_some_iff.mp hread
      cases hparts
      exact ⟨hascii, elements, suffix, Legacy.counts_of_elements? helements, hsuffix⟩
    · rintro ⟨-, elements, suffix, hcounts, hsuffix⟩
      exact ⟨.legacy elements, suffix, by rw [Legacy.elements?_of_counts hcounts]; rfl, hsuffix⟩
  · have hall : ¬ (withoutCopyNumber behind).all (fun c => c.toNat < 0x80) = true := fun h =>
      hascii fun c hc => of_decide_eq_true (List.all_eq_true.mp h c hc)
    rw [if_neg hall]
    exact ⟨fun ⟨_, _, hread, _⟩ => (nomatch hread), fun h => absurd h.1 hascii⟩

theorem head?_of_isSuffix {suffix : List Char} (h : isSuffix suffix = true) :
    suffix = [] ∨ suffix.head? = some '.' := by
  cases suffix with
  | nil => exact .inl rfl
  | cons first rest =>
      simp only [isSuffix, List.isEmpty_cons, Bool.false_or, Bool.and_eq_true,
        decide_eq_true_eq] at h
      exact .inr h.1

theorem readsNestedNames : Demangler.ReadsNestedNames := by
  constructor
  case accepts =>
    intro mark hmark elements h
    have hword {c : Char} (hc : c ∈ elements.flatMap counted ++ ['E']) : isWordChar c := by
      obtain hc | hc := List.mem_append.mp hc
      · exact isWordChar_of_mem_flatMap_counted h hc
      · rw [List.mem_singleton.mp hc]
        decide
    have hkept : withoutCopyNumber (elements.flatMap counted ++ ['E']) =
        elements.flatMap counted ++ ['E'] := by
      have hpoint : '.' ∉ elements.flatMap counted ++ ['E'] := fun hc =>
        ne_of_isWordChar (hword hc) (by decide) rfl
      have hnone : withoutCopyNumber [] = [] := rfl
      simpa only [hnone, List.append_nil] using withoutCopyNumber_append hpoint []
    refine (isSome_demangle?_mark_iff hmark _).mpr ?_
    rw [hkept]
    exact ⟨fun c hc => Legacy.toNat_lt_of_isWordChar (hword hc), elements, [],
      counts_flatMap_counted h [], rfl⟩
  case counts =>
    intro mark hmark behind h
    obtain ⟨-, elements, suffix, hcounts, hsuffix⟩ := (isSome_demangle?_mark_iff hmark behind).mp h
    obtain ⟨dropped, hbehind, hdropped⟩ := exists_eq_withoutCopyNumber_append behind
    refine ⟨elements, suffix ++ dropped, hbehind ▸ hcounts.append dropped, ?_⟩
    obtain rfl | hpoint := head?_of_isSuffix hsuffix
    · exact hdropped
    · exact .inr (by rw [List.head?_append, hpoint]; rfl)

/-- The letters that announce a mangling do so behind one underscore or two, or none. -/
theorem readAny?_underscore {body : List Char} (h : Demangler.IsBody body) :
    readAny? ('_' :: body) = readAny? body ∧ readAny? ('_' :: '_' :: body) = readAny? body := by
  obtain ⟨rest, rfl⟩ | ⟨rest, rfl⟩ := h <;> exact ⟨rfl, rfl⟩

theorem exists_isBody_of_readAny? {name : List Char} (h : (readAny? name).isSome) :
    ∃ body, Demangler.IsBody body ∧ name ∈ [body, '_' :: body, '_' :: '_' :: body] := by
  have hbody : (Legacy.body? name).isSome ∨ (V0.body? name).isSome := by
    by_contra hnone
    simp only [not_or, Option.not_isSome_iff_eq_none] at hnone
    simp [readAny?, Legacy.read?, V0.read?, hnone.1, hnone.2] at h
  obtain hlegacy | hv0 := hbody
  · unfold Legacy.body? at hlegacy
    split at hlegacy
    · next rest => exact ⟨'Z' :: 'N' :: rest, .inl ⟨rest, rfl⟩, by simp⟩
    · next rest => exact ⟨'Z' :: 'N' :: rest, .inl ⟨rest, rfl⟩, by simp⟩
    · next rest => exact ⟨'Z' :: 'N' :: rest, .inl ⟨rest, rfl⟩, by simp⟩
    · cases hlegacy
  · unfold V0.body? at hv0
    split at hv0
    · next rest => exact ⟨'R' :: rest, .inr ⟨rest, rfl⟩, by simp⟩
    · next rest => exact ⟨'R' :: rest, .inr ⟨rest, rfl⟩, by simp⟩
    · next rest => exact ⟨'R' :: rest, .inr ⟨rest, rfl⟩, by simp⟩
    · cases hv0

theorem ignoresUnderscores : Demangler.IgnoresUnderscores := by
  constructor
  case isBody =>
    intro name h
    change (demangle? name).isSome at h
    rw [isSome_demangle?, ← String.ofList_toList (s := name), isSome_read?_iff] at h
    obtain ⟨mangled, suffix, hread, -⟩ := h
    obtain ⟨body, hbody, hmem⟩ := exists_isBody_of_readAny? (by rw [hread]; rfl)
    obtain ⟨dropped, hname, -⟩ := exists_eq_withoutCopyNumber_append name.toList
    refine ⟨body ++ dropped, hbody.append dropped, ?_⟩
    rw [hname]
    simp only [List.mem_cons, List.not_mem_nil, or_false] at hmem ⊢
    obtain hmem | hmem | hmem := hmem <;> rw [hmem] <;> simp
  case alike =>
    intro body h
    have hkept : Demangler.IsBody (withoutCopyNumber body) := by
      obtain ⟨rest, rfl⟩ | ⟨rest, rfl⟩ := h
      · rw [withoutCopyNumber_append (by decide)]
        exact .inl (List.prefix_append _ _)
      · rw [withoutCopyNumber_append (by decide)]
        exact .inr (List.prefix_append _ _)
    obtain ⟨hone, htwo⟩ := readAny?_underscore hkept
    have hread {name : List Char}
        (hname : readAny? (withoutCopyNumber name) = readAny? (withoutCopyNumber body)) :
        (demangle? (String.ofList name)).isSome = (demangle? (String.ofList body)).isSome := by
      rw [isSome_demangle?, isSome_demangle?, read?, read?, String.toList_ofList,
        String.toList_ofList, hname]
    constructor
    · refine hread ?_
      rw [withoutCopyNumber_cons (by decide), hone]
    · refine hread ?_
      rw [withoutCopyNumber_cons (by decide), withoutCopyNumber_cons (by decide), htwo]

end MachImage.Mangling
