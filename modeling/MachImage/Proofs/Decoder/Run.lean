import Mathlib.Data.Nat.Notation
import Mathlib.Data.List.Forall2
import MachImage.Decoder

/-! # Runs of decoders

What the primitive decoders do to a cursor, one equation each.  A proof about a decoder
opens it with `bind_apply` and goes on with these; no later module unfolds a primitive.
`Decoder.answer` is what a run gives, without the cursor that it leaves behind.

`Input.u32?` is the number in the four bytes from an offset of a file on.  It says what
`Decoder.u32` reads without a cursor (`u32_apply`), so that a statement about a decoder can
name the numbers that stand in the file.

A loop that succeeds is a chain of runs of its body: `Runs item input c values c'` says that
`item` succeeds once for each value, each time from the cursor that the run before it left.
What holds of a single run is carried along the chain by induction. -/

namespace MachImage

instance decidableEqExcept {ε α : Type} [DecidableEq ε] [DecidableEq α] :
    DecidableEq (Except ε α)
  | .ok a, .ok b => decidable_of_iff (a = b) ⟨congrArg _, Except.ok.inj⟩
  | .error e, .error e' => decidable_of_iff (e = e') ⟨congrArg _, Except.error.inj⟩
  | .ok _, .error _ => isFalse nofun
  | .error _, .ok _ => isFalse nofun

namespace Decoder

variable {α β : Type} (input : Input) (c : Cursor)

/-- What a decoder gives on an input, from a cursor on. -/
def answer (m : Decoder α) (input : Input) (c : Cursor) : Except DecodeError α :=
  match m input c with
  | .ok a _ => .ok a
  | .error e _ => .error e

theorem answer_of_ok {m : Decoder α} {input : Input} {c c' : Cursor} {a : α}
    (h : m input c = .ok a c') : m.answer input c = .ok a := by
  simp [answer, h]

theorem answer_of_error {m : Decoder α} {input : Input} {c c' : Cursor} {e : DecodeError}
    (h : m input c = .error e c') : m.answer input c = .error e := by
  simp [answer, h]

/-- An answer of which something is known is a value. -/
theorem exists_of_toOption_map {x : Except DecodeError α} {f : α → β} {b : β}
    (h : x.toOption.map f = some b) : ∃ a, x = .ok a ∧ f a = b := by
  cases x with
  | error e => cases h
  | ok a => exact ⟨a, rfl, Option.some.inj h⟩

theorem exists_of_answer_ok {m : Decoder α} {input : Input} {c : Cursor} {a : α}
    (h : m.answer input c = .ok a) : ∃ c', m input c = .ok a c' := by
  unfold answer at h
  split at h
  · cases h
    exact ⟨_, by assumption⟩
  · cases h

/-! ### Sequencing -/

theorem pure_apply (a : α) : (pure a : Decoder α) input c = .ok a c := rfl

theorem bind_apply (m : Decoder α) (f : α → Decoder β) :
    (m >>= f) input c = match m input c with
      | .ok a c' => f a input c'
      | .error e c' => .error e c' := by
  show EStateM.bind (m input) (fun a => f a input) c = _
  unfold EStateM.bind
  cases m input c <;> rfl

theorem bind_of_ok {m : Decoder α} {input : Input} {c c' : Cursor} {a : α}
    (h : m input c = .ok a c') (f : α → Decoder β) : (m >>= f) input c = f a input c' := by
  rw [bind_apply, h]

/-- A sequence succeeds when both of its parts do, one behind the other. -/
theorem bind_eq_ok {m : Decoder α} {f : α → Decoder β} {input : Input} {c c' : Cursor} {b : β} :
    (m >>= f) input c = .ok b c' ↔ ∃ a c₁, m input c = .ok a c₁ ∧ f a input c₁ = .ok b c' := by
  rw [bind_apply]
  cases hm : m input c with
  | ok a c₁ =>
      refine ⟨fun h => ⟨a, c₁, rfl, h⟩, ?_⟩
      rintro ⟨_, _, ⟨⟩, h⟩
      exact h
  | error e c₁ =>
      constructor
      · rintro ⟨⟩
      · rintro ⟨_, _, ⟨⟩, _⟩

theorem pure_eq_ok {input : Input} {c c' : Cursor} {a b : α}
    (h : (pure a : Decoder α) input c = .ok b c') : a = b ∧ c = c' := by
  cases h
  exact ⟨rfl, rfl⟩

/-- A loop of runs that all succeed, wherever they start, succeeds with all their values. -/
theorem listMapM_of_ok {γ : Type} {input : Input} {f : α → Decoder β} {entry : γ → α}
    {value : γ → β} {xs : List γ}
    (h : ∀ x ∈ xs, ∀ c, ∃ c', f (entry x) input c = .ok (value x) c') (c : Cursor) :
    ∃ c', (xs.map entry).mapM f input c = .ok (xs.map value) c' := by
  induction xs generalizing c with
  | nil => exact ⟨c, rfl⟩
  | cons x rest ih =>
      obtain ⟨c₁, hx⟩ := h x List.mem_cons_self c
      obtain ⟨c₂, hrest⟩ := ih (fun y hy => h y (List.mem_cons_of_mem x hy)) c₁
      refine ⟨c₂, ?_⟩
      rw [List.map_cons, List.mapM_cons, bind_of_ok hx, bind_of_ok hrest]
      rfl

theorem mapM_of_ok {γ : Type} {input : Input} {f : α → Decoder β} {entry : γ → α}
    {value : γ → β} {xs : List γ}
    (h : ∀ x ∈ xs, ∀ c, ∃ c', f (entry x) input c = .ok (value x) c') (c : Cursor) :
    ∃ c', (xs.map entry).toArray.mapM f input c = .ok (xs.map value).toArray c' := by
  obtain ⟨c', hall⟩ := listMapM_of_ok h c
  refine ⟨c', ?_⟩
  rw [Array.mapM_eq_mapM_toList, ← bind_pure_comp, bind_of_ok hall]
  rfl

/-- In a loop that succeeds every value comes from a run of its own. -/
theorem listMapM_eq_ok {f : α → Decoder β} {input : Input} {xs : List α} {ys : List β}
    {c c' : Cursor} (h : xs.mapM f input c = .ok ys c') :
    List.Forall₂ (fun x y => ∃ c₁ c₂, f x input c₁ = .ok y c₂) xs ys := by
  induction xs generalizing c c' ys with
  | nil =>
      obtain ⟨rfl, _⟩ := pure_eq_ok h
      exact .nil
  | cons x rest ih =>
      rw [List.mapM_cons] at h
      obtain ⟨y, c₁, hx, h⟩ := bind_eq_ok.mp h
      obtain ⟨ys', c₂, hrest, h⟩ := bind_eq_ok.mp h
      obtain ⟨rfl, _⟩ := pure_eq_ok h
      exact .cons ⟨c, c₁, hx⟩ (ih hrest)

theorem mapM_eq_ok {f : α → Decoder β} {input : Input} {xs : Array α} {ys : Array β}
    {c c' : Cursor} (h : xs.mapM f input c = .ok ys c') :
    List.Forall₂ (fun x y => ∃ c₁ c₂, f x input c₁ = .ok y c₂) xs.toList ys.toList := by
  rw [Array.mapM_eq_mapM_toList, ← bind_pure_comp] at h
  obtain ⟨ys', c₁, hlist, h⟩ := bind_eq_ok.mp h
  obtain ⟨rfl, _⟩ := pure_eq_ok h
  exact listMapM_eq_ok hlist

theorem exists_of_mem_mapM {f : α → Decoder β} {input : Input} {xs : Array α} {ys : Array β}
    {c c' : Cursor} (h : xs.mapM f input c = .ok ys c') {y : β} (hy : y ∈ ys) :
    ∃ x ∈ xs, ∃ c₁ c₂, f x input c₁ = .ok y c₂ := by
  obtain ⟨i, hi, rfl⟩ := List.mem_iff_getElem.mp (Array.mem_toList_iff.mpr hy)
  obtain ⟨hlength, hall⟩ := List.forall₂_iff_get.mp (mapM_eq_ok h)
  have hx : i < xs.toList.length := by rwa [hlength]
  exact ⟨xs.toList[i], Array.mem_toList_iff.mp (List.getElem_mem hx), hall i hx hi⟩

/-! ### The cursor -/

theorem position_apply : position input c = .ok c.position c := rfl

theorem order_apply : order input c = .ok c.order c := rfl

theorem seek_apply (p : ℕ) : seek p input c = .ok () { c with position := p } := rfl

theorem setOrder_apply (order : ByteOrder) :
    setOrder order input c = .ok () { c with order } := rfl

/-! ### Bytes -/

theorem field_apply (length : ℕ) :
    field length input c = match input.window? c.position length with
      | some w => .ok w.toList { c with position := c.position + length }
      | none => .error (.truncated c.position length) { c with position := input.size } := by
  show (match input.window? c.position length with
      | some _ => _
      | none => _ : Decoder _) input c = _
  cases input.window? c.position length <;> rfl

theorem bytes_apply {length : ℕ} (h : length ≠ 0) :
    bytes length input c = match input.window? c.position length with
      | some w => .ok w { c with position := c.position + length }
      | none =>
        .error (.truncated c.position length)
          { c with position := max c.position input.size } := by
  show (if length = 0 then _ else _ : Decoder _) input c = _
  rw [if_neg h]
  show (match input.window? c.position length with
      | some _ => _
      | none => _ : Decoder _) input c = _
  cases input.window? c.position length <;> rfl

theorem bytesAt_apply (offset length : ℕ) :
    bytesAt offset length input c = match input.window? offset length with
      | some w => .ok w c
      | none => .error (.truncated offset length) c := by
  show (match input.window? offset length with
      | some _ => _
      | none => _ : Decoder _) input c = _
  cases input.window? offset length <;> rfl

end Decoder

/-! ### Numbers at an offset -/

namespace Input

variable (input : Input) (order : ByteOrder)

/-- The number in the `length` bytes from an offset on, if they are all there. -/
def number? (offset length : ℕ) : Option ℕ :=
  (input.window? offset length).map fun w => order.value w.toList

/-- The number in the four bytes from an offset on, if they are all there. -/
def u32? (offset : ℕ) : Option UInt32 := (input.number? order offset 4).map UInt32.ofNat

variable {input order} {offset length : ℕ}

theorem window?_eq_none : input.window? offset length = none ↔ input.size < offset + length := by
  simp [window?]

theorem number?_eq_none :
    input.number? order offset length = none ↔ input.size < offset + length := by
  rw [number?, Option.map_eq_none_iff, window?_eq_none]

theorem u32?_eq_none : input.u32? order offset = none ↔ input.size < offset + 4 := by
  rw [u32?, Option.map_eq_none_iff, number?_eq_none]

theorem le_size_of_u32? {n : UInt32} (h : input.u32? order offset = some n) :
    offset + 4 ≤ input.size := by
  by_contra hlt
  rw [u32?_eq_none.mpr (by omega)] at h
  cases h

end Input

namespace Decoder

variable (input : Input) (c : Cursor)

theorem number_apply (length : ℕ) :
    number length input c = match input.number? c.order c.position length with
      | some n => .ok n { c with position := c.position + length }
      | none => .error (.truncated c.position length) { c with position := input.size } := by
  unfold number Input.number?
  rw [bind_of_ok (order_apply input c), bind_apply, field_apply]
  cases input.window? c.position length <;> rfl

theorem u32_apply :
    u32 input c = match input.u32? c.order c.position with
      | some n => .ok n { c with position := c.position + 4 }
      | none => .error (.truncated c.position 4) { c with position := input.size } := by
  unfold u32 Input.u32?
  rw [bind_apply, number_apply]
  cases input.number? c.order c.position 4 <;> rfl

variable {input c}

theorem u32_eq_ok {n : UInt32} {c' : Cursor} (h : u32 input c = .ok n c') :
    input.u32? c.order c.position = some n ∧ c' = { c with position := c.position + 4 } := by
  rw [u32_apply] at h
  split at h
  · next m hm =>
    cases h
    exact ⟨hm, rfl⟩
  · cases h

theorem bind_u32_eq_ok {β : Type} {f : UInt32 → Decoder β} {b : β} {c' : Cursor}
    (h : (u32 >>= f) input c = .ok b c') :
    ∃ n, input.u32? c.order c.position = some n ∧
      f n input { c with position := c.position + 4 } = .ok b c' := by
  obtain ⟨n, c₁, hn, h⟩ := bind_eq_ok.mp h
  obtain ⟨hword, rfl⟩ := u32_eq_ok hn
  exact ⟨n, hword, h⟩

end Decoder

/-! ### Loops run by run -/

namespace Decoder

variable {α : Type}

/-- The decoder succeeds with these values in a row, from the first cursor to the last. -/
inductive Runs (item : Decoder α) (input : Input) : Cursor → List α → Cursor → Prop
  | nil (c : Cursor) : Runs item input c [] c
  | cons {c c₁ c₂ : Cursor} {value : α} {values : List α} :
      item input c = .ok value c₁ → Runs item input c₁ values c₂ →
        Runs item input c (value :: values) c₂

variable {item : Decoder α} {input : Input} {c c' : Cursor}

theorem runs_of_repeatedFrom {count : ℕ} {before values : Array α}
    (h : repeatedFrom item before count input c = .ok values c') :
    ∃ new : List α, values = before ++ new.toArray ∧ new.length = count ∧
      Runs item input c new c' := by
  induction count generalizing before c with
  | zero =>
      obtain ⟨rfl, rfl⟩ := pure_eq_ok h
      exact ⟨[], by simp, rfl, .nil c⟩
  | succ count ih =>
      obtain ⟨value, c₁, hfirst, hrest⟩ := bind_eq_ok.mp h
      obtain ⟨new, rfl, hlength, hruns⟩ := ih hrest
      exact ⟨value :: new, by simp, by rw [List.length_cons, hlength], .cons hfirst hruns⟩

theorem runs_of_repeated {count : ℕ} {values : Array α}
    (h : repeated count item input c = .ok values c') :
    values.size = count ∧ Runs item input c values.toList c' := by
  obtain ⟨new, rfl, hlength, hruns⟩ := runs_of_repeatedFrom h
  exact ⟨by simpa using hlength, by simpa using hruns⟩

theorem Runs.append {values more : List α} {c₁ : Cursor} (h : Runs item input c values c₁)
    (hmore : Runs item input c₁ more c') : Runs item input c (values ++ more) c' := by
  induction h with
  | nil c => exact hmore
  | cons hfirst _ ih => exact .cons hfirst (ih hmore)

theorem Runs.repeatedFrom {values : List α} (h : Runs item input c values c')
    (before : Array α) :
    repeatedFrom item before values.length input c = .ok (before ++ values.toArray) c' := by
  induction h generalizing before with
  | nil c => rw [List.length_nil, Array.append_empty]; rfl
  | cons hfirst _ ih =>
      rw [List.length_cons, Decoder.repeatedFrom, bind_of_ok hfirst, ih]
      simp

theorem Runs.repeated {values : List α} (h : Runs item input c values c') :
    repeated values.length item input c = .ok values.toArray c' := by
  have hloop := h.repeatedFrom #[]
  rwa [Array.empty_append] at hloop

theorem Runs.exists_run_of_mem {values : List α} (h : Runs item input c values c') {value : α}
    (hvalue : value ∈ values) : ∃ c₁ c₂, item input c₁ = .ok value c₂ := by
  induction h with
  | nil c => cases hvalue
  | cons hfirst _ ih =>
      cases List.mem_cons.mp hvalue with
      | inl heq => exact ⟨_, _, heq ▸ hfirst⟩
      | inr hrest => exact ih hrest

end Decoder

end MachImage
