import MachImage.Proofs.Mangling.Rules

/-! # The language of mangled names

Which names are Rust is left to the demangler, of which nothing is used but its rules as they are
stated by the form of names.  Two things follow from them.

A nested name with nothing behind it is a name of Rust whatever its elements are
(`Symbol.language_nestedName`): what tells a name of C++ from it is only the types of parameters
that stand behind.

A name that starts with `_Z` or `_R` keeps its language under an underscore more just if the
demangler takes it (`Language.ofName_underscore`): the marks of the two manglings are looked for
behind two underscores, and the demangler finds them behind one as well. -/

namespace MachImage

open Demangler (ReadsNestedNames IgnoresUnderscores)

namespace Language

variable [Demangler] {name : String}

theorem ofName_eq (h : name ≠ "") :
    ofName name =
      if "_R".toList.isPrefixOf (withoutUnderscore name.toList) ||
        (Demangler.demangle? name).isSome then rust
      else if "_Z".toList.isPrefixOf (withoutUnderscore name.toList) then cpp
      else c := by
  have hempty : ¬ name.isEmpty = true := fun hempty => h (String.isEmpty_iff.mp hempty)
  unfold ofName
  dsimp only
  rw [if_neg hempty]

theorem ofName_of_isSome (h : name ≠ "") (hsome : (Demangler.demangle? name).isSome) :
    ofName name = rust := by
  rw [ofName_eq h, hsome, Bool.or_true, if_pos rfl]

end Language

/-! ### Nested names -/

section nested

variable {elements : List (List Char)}

theorem nestedName_ne_empty (elements : List (List Char)) (suffix : List Char) :
    nestedName elements suffix ≠ "" := by
  intro h
  have hlist := congrArg String.toList h
  rw [toList_nestedName] at hlist
  cases hlist

theorem Demangler.ReadsNestedNames.isSome_nestedName [Demangler] (rules : ReadsNestedNames)
    (h : ∀ element ∈ elements, IsIdentifier element) :
    (demangle? (nestedName elements [])).isSome :=
  rules.accepts _ (by decide) elements h

/-- What stands behind the elements can only be a word that starts with a point. -/
theorem Demangler.ReadsNestedNames.demangle?_nestedName_cons [Demangler]
    (rules : ReadsNestedNames) (h : ∀ element ∈ elements, IsIdentifier element)
    {first : Char} (hfirst : first ≠ '.') (rest : List Char) :
    demangle? (nestedName elements (first :: rest)) = none := by
  by_contra hsome
  obtain ⟨read, suffix, hread, hsuffix⟩ :=
    rules.counts _ (by decide) _ (Option.isSome_iff_ne_none.mpr hsome)
  obtain ⟨-, rfl⟩ := hread.eq_of_identifiers h rfl
  obtain hsuffix | hsuffix := hsuffix
  · cases hsuffix
  · exact hfirst (Option.some.inj hsuffix)

/-- **A nested name is Rust unless something stands behind it.**  A demangler that reads nested
names takes every path of identifiers, with or without a hash at its end, and so a symbol with
such a name is Rust and has a path to show.  With anything behind it that does not start with a
point, such as the types of parameters, the name is C++ and there is no path. -/
theorem Symbol.language_nestedName [Demangler] (rules : ReadsNestedNames)
    (h : ∀ element ∈ elements, IsIdentifier element) (s : Symbol) :
    (s.name = nestedName elements [] → s.language = .rust ∧ s.demangled?.isSome) ∧
    ∀ first rest, first ≠ '.' → s.name = nestedName elements (first :: rest) →
      s.language = .cpp ∧ s.demangled? = none := by
  have hne (suffix : List Char) : (nestedName elements suffix).isEmpty = false :=
    Bool.eq_false_iff.mpr fun hempty =>
      nestedName_ne_empty elements suffix (String.isEmpty_iff.mp hempty)
  constructor
  · intro hname
    have hsome := rules.isSome_nestedName h
    rw [Symbol.language, Symbol.demangled?, hname, hne, if_neg Bool.false_ne_true]
    exact ⟨Language.ofName_of_isSome (nestedName_ne_empty _ _) hsome, hsome⟩
  · intro first rest hfirst hname
    have hnone := rules.demangle?_nestedName_cons h hfirst rest
    -- Behind one underscore the other still stands in front of the mark.
    have hbare : Language.withoutUnderscore (nestedName elements (first :: rest)).toList =
        '_' :: 'Z' :: 'N' :: (elements.flatMap counted ++ 'E' :: first :: rest) := by
      rw [toList_nestedName]
      rfl
    rw [Symbol.language, Symbol.demangled?, hname, hne, if_neg Bool.false_ne_true,
      Language.ofName_eq (nestedName_ne_empty _ _), hnone, hbare]
    exact ⟨rfl, rfl⟩

/-- A static member of a C++ class carries no types behind its path, and is taken for Rust.  A
function without parameters of the same name is not. -/
theorem Symbol.language_nestedName_member :
    let elements := ["Config".toList, "instance".toList]
    let member : Symbol := { index := 0, value := 0, name? := some "__ZN6Config8instanceE" }
    let function : Symbol := { index := 0, value := 0, name? := some "__ZN6Config8instanceEv" }
    ReadsNestedNames ∧ (∀ element ∈ elements, IsIdentifier element) ∧
      member.name = nestedName elements [] ∧
      member.language = .rust ∧ member.demangled?.isSome ∧
      'v' ≠ '.' ∧ function.name = nestedName elements ['v'] ∧
      function.language = .cpp ∧ function.demangled? = none := by
  intro elements member function
  have hidentifiers : ∀ element ∈ elements, IsIdentifier element := by
    decide
  have hmember : member.name = nestedName elements [] := by
    decide
  have hfunction : function.name = nestedName elements ['v'] := by
    decide
  obtain ⟨hrust, hpath⟩ :=
    (Symbol.language_nestedName Mangling.readsNestedNames hidentifiers member).1 hmember
  obtain ⟨hcpp, hnone⟩ :=
    (Symbol.language_nestedName Mangling.readsNestedNames hidentifiers function).2 'v' []
      (by decide) hfunction
  exact ⟨Mangling.readsNestedNames, hidentifiers, hmember, hrust, hpath, by decide, hfunction,
    hcpp, hnone⟩

/-- Nested names without a hash are not left to C++. -/
theorem Symbol.not_language_nestedName_eq_cpp :
    ¬ ∀ [Demangler], ReadsNestedNames →
      ∀ elements : List (List Char), elements ≠ [] →
        (∀ element ∈ elements, IsIdentifier element) →
        (∀ last ∈ elements.getLast?, ¬ IsRustHash last) →
          ∀ s : Symbol, s.name = nestedName elements [] →
            s.language = .cpp ∧ s.demangled? = none := by
  intro hall
  have hidentifiers : ∀ element ∈ ["foo".toList, "bar".toList], IsIdentifier element := by
    decide
  have hhash : ∀ last ∈ ["foo".toList, "bar".toList].getLast?, ¬ IsRustHash last := by
    rintro last hlast ⟨digits, hdigits, -⟩
    obtain rfl : "bar".toList = last := Option.some.inj hlast
    exact absurd (List.cons.inj hdigits).1 (by decide)
  have hname : (nestedName ["foo".toList, "bar".toList] []).isEmpty = false := by
    decide
  obtain ⟨-, hnone⟩ := hall Mangling.readsNestedNames _ (by decide) hidentifiers hhash
    { index := 0, value := 0, name? := some (nestedName ["foo".toList, "bar".toList] []) } rfl
  have hsome := Mangling.readsNestedNames.isSome_nestedName hidentifiers
  rw [Symbol.demangled?, Symbol.name, Option.getD_some, hname, if_neg Bool.false_ne_true] at hnone
  rw [hnone] at hsome
  cases hsome

end nested

/-! ### One more underscore -/

namespace Language

section marked

variable [Demangler] {name : String} {mark : Char} {rest : List Char}
  (hname : name.toList = '_' :: mark :: rest) (hmark : mark = 'Z' ∨ mark = 'R')

include hname hmark

/-- The mark of a name is not seen behind its first underscore. -/
theorem ofName_marked :
    ofName name = (if (Demangler.demangle? name).isSome then rust else c) := by
  have hne : name ≠ "" := by
    rintro rfl
    cases hname
  have hbare : withoutUnderscore name.toList = mark :: rest := by rw [hname]; rfl
  rw [ofName_eq hne, hbare]
  rcases hmark with rfl | rfl <;> rfl

/-- The mark of a name is seen behind one underscore more. -/
theorem ofName_underscore_marked :
    ofName ("_" ++ name) =
      (if (Demangler.demangle? ("_" ++ name)).isSome ∨ "_R".toList <+: name.toList then rust
        else cpp) := by
  have hlist : ("_" ++ name).toList = '_' :: name.toList := String.toList_append
  have hne : "_" ++ name ≠ "" := by
    intro hempty
    rw [hempty] at hlist
    cases hlist
  have hbare : withoutUnderscore ("_" ++ name).toList = name.toList := by rw [hlist]; rfl
  rw [ofName_eq hne, hbare, hname]
  rcases hmark with rfl | rfl <;> cases (Demangler.demangle? ("_" ++ name)).isSome <;> rfl

end marked

/-- A demangler that takes a mangled name under any number of underscores takes other names
under none: where a `Z` is not followed by an `N`, both spellings are refused. -/
theorem isSome_demangle?_underscore [Demangler] (rules : IgnoresUnderscores) {name : String}
    (h : "_Z".toList <+: name.toList ∨ "_R".toList <+: name.toList) :
    (Demangler.demangle? ("_" ++ name)).isSome = (Demangler.demangle? name).isSome := by
  obtain ⟨body, hname, hmark⟩ :
      ∃ body, name.toList = '_' :: body ∧ (body.head? = some 'Z' ∨ body.head? = some 'R') := by
    rcases h with ⟨rest, hrest⟩ | ⟨rest, hrest⟩
    · exact ⟨'Z' :: rest, hrest.symm, .inl rfl⟩
    · exact ⟨'R' :: rest, hrest.symm, .inr rfl⟩
  have hunderscore : body.head? ≠ some '_' := by
    rcases hmark with hmark | hmark <;> rw [hmark] <;> decide
  have hplain : name = String.ofList ('_' :: body) := by
    rw [← hname, String.ofList_toList]
  have hmore : "_" ++ name = String.ofList ('_' :: '_' :: body) := by
    rw [← hname, ← String.toList_inj, String.toList_append, String.toList_ofList,
      String.toList_ofList, List.singleton_append]
  by_cases hbody : Demangler.IsBody body
  · obtain ⟨hone, htwo⟩ := rules.alike body hbody
    rw [hmore, hplain, htwo, hone]
  · -- The only body that a spelling of the name can have is this one.
    have hnone {spelled : String}
        (hspelled : spelled.toList = '_' :: body ∨ spelled.toList = '_' :: '_' :: body) :
        (Demangler.demangle? spelled).isSome = false := by
      rw [Bool.eq_false_iff]
      intro hsome
      obtain ⟨other, hother, hmem⟩ := rules.isBody spelled hsome
      have hfirst : other.head? ≠ some '_' := by
        rcases hother with ⟨rest, rfl⟩ | ⟨rest, rfl⟩ <;> exact fun h => by cases h
      simp only [List.mem_cons, List.not_mem_nil, or_false] at hmem
      have hsame : other = body := by
        rcases hspelled with hspelled | hspelled <;> rw [hspelled] at hmem <;> grind
      exact hbody (hsame ▸ hother)
    rw [hnone (.inr (by rw [hmore, String.toList_ofList])), hnone (.inl hname)]

/-- **Names that can be demangled keep their language under one more underscore, and no others
do.**  For a demangler that takes a mangled name alike under one underscore or two, a name that
starts with `_Z` or `_R` and that can be demangled is Rust, with an underscore more in front and
without.  One that cannot be demangled is C as it stands, and Rust or C++ with an underscore
more, as its mark says. -/
theorem ofName_underscore [Demangler] (rules : IgnoresUnderscores) {name : String}
    (h : "_Z".toList <+: name.toList ∨ "_R".toList <+: name.toList) :
    ofName name = (if (Demangler.demangle? name).isSome then rust else c) ∧
    ofName ("_" ++ name) =
      (if (Demangler.demangle? name).isSome ∨ "_R".toList <+: name.toList then rust else cpp) ∧
    (ofName ("_" ++ name) = ofName name ↔ (Demangler.demangle? name).isSome) := by
  obtain ⟨mark, rest, hname, hmark⟩ :
      ∃ mark rest, name.toList = '_' :: mark :: rest ∧ (mark = 'Z' ∨ mark = 'R') := by
    rcases h with ⟨rest, hrest⟩ | ⟨rest, hrest⟩
    · exact ⟨'Z', rest, hrest.symm, .inl rfl⟩
    · exact ⟨'R', rest, hrest.symm, .inr rfl⟩
  have hplain := ofName_marked hname hmark
  have hmore := ofName_underscore_marked hname hmark
  rw [isSome_demangle?_underscore rules h] at hmore
  refine ⟨hplain, hmore, ?_⟩
  rw [hplain, hmore]
  cases (Demangler.demangle? name).isSome with
  | true => exact ⟨fun _ => rfl, fun _ => rfl⟩
  | false =>
      rw [if_neg Bool.false_ne_true]
      constructor
      · intro hsame
        split at hsame <;> cases hsame
      · nofun

/-- A function of C++ in either spelling, a mark of Rust without a path behind it, and one with
a path. -/
theorem ofName_underscore_cpp :
    IgnoresUnderscores ∧
      "_Z".toList <+: "_Z3foov".toList ∧ ofName "_Z3foov" = c ∧ ofName "__Z3foov" = cpp ∧
      "_R".toList <+: "_Rfoo".toList ∧ ofName "_Rfoo" = c ∧ ofName "__Rfoo" = rust ∧
      "_R".toList <+: "_RNvC3foo3bar".toList ∧ ofName "_RNvC3foo3bar" = rust ∧
      ofName "__RNvC3foo3bar" = ofName "_RNvC3foo3bar" := by
  have hcpp : "_Z".toList <+: "_Z3foov".toList := by decide
  have hrust : "_R".toList <+: "_Rfoo".toList := by decide
  have hpath : "_R".toList <+: "_RNvC3foo3bar".toList := by decide
  have hcppNone : Demangler.demangle? "_Z3foov" = none := by decide
  have hrustNone : Demangler.demangle? "_Rfoo" = none := by decide
  have hpathSome : (Demangler.demangle? "_RNvC3foo3bar").isSome :=
    (Mangling.isSome_demangle? _).trans (by set_option maxRecDepth 4000 in decide)
  obtain ⟨hcppPlain, hcppMore, -⟩ := ofName_underscore Mangling.ignoresUnderscores (.inl hcpp)
  obtain ⟨hrustPlain, hrustMore, -⟩ := ofName_underscore Mangling.ignoresUnderscores (.inr hrust)
  obtain ⟨hpathPlain, -, hpathSame⟩ := ofName_underscore Mangling.ignoresUnderscores (.inr hpath)
  rw [hcppNone] at hcppPlain hcppMore
  rw [hrustNone] at hrustPlain hrustMore
  rw [if_pos hpathSome] at hpathPlain
  exact ⟨Mangling.ignoresUnderscores, hcpp, hcppPlain, hcppMore, hrust, hrustPlain, hrustMore,
    hpath, hpathPlain, hpathSame.mpr hpathSome⟩

/-- Marks are not looked for behind a single underscore, and so the two spellings differ. -/
theorem not_ofName_underscore_eq :
    ¬ ∀ [Demangler], IgnoresUnderscores →
      ∀ name : String, "_Z".toList <+: name.toList ∨ "_R".toList <+: name.toList →
        ofName ("_" ++ name) = ofName name := by
  intro hall
  have hcpp : ofName ("_" ++ "_Z3foov") = cpp := by decide
  have hc : ofName "_Z3foov" = c := by decide
  have hsame := hall Mangling.ignoresUnderscores "_Z3foov" (.inl (by decide))
  rw [hcpp, hc] at hsame
  cases hsame

end Language

end MachImage
