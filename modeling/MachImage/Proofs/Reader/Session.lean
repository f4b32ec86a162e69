import MachImage.Reader
import MachImage.Proofs.Slice.Relocation

/-! # Sessions and decoders

The decoders take sections out of the file itself, a session takes them out of what its reader
keeps.  A session `Refines` a decoder when it gives the same, moves the cursor alike and leaves
what the reader keeps the file (`Reader.Fits`), whether it succeeds or fails.  Everything that
is done with a reader refines the decoder of the same name, so what a reader keeps shows in no
answer.

The plain way to the bytes of a section is to go to their place and to read as many bytes as
are wanted (`Session.plain`).  It gives the same bytes as the file that is kept and fails alike,
but for one case: no bytes at a place past the end are none when they are read, and a range that
lies past the end when they are taken out of the file (`Session.shared_eq_plain`). -/

namespace MachImage

namespace Session

/-! ### Outcomes -/

variable {α β : Type}

/-- The reader that a session leaves behind, also where it fails. -/
def after (s : Session α) (input : Input) (reader : Reader) : Reader :=
  match s input reader with
  | .ok _ reader => reader
  | .error _ reader => reader

theorem bind_apply (s : Session α) (t : α → Session β) (input : Input) (reader : Reader) :
    (s >>= t) input reader = match s input reader with
      | .ok a reader' => t a input reader'
      | .error e reader' => .error e reader' := by
  show EStateM.bind (s input) (fun a => t a input) reader = _
  unfold EStateM.bind
  cases s input reader <;> rfl

end Session

/-! ### Refinement -/

/-- What the reader keeps, if anything, is the file that it reads. -/
def Reader.Fits (input : Input) (reader : Reader) : Prop :=
  ∀ image, reader.image? = some image → image = input

theorem Reader.fits_fresh (input : Input) : Reader.Fits input {} := nofun

namespace Session

variable {α β : Type} {input : Input} {reader : Reader}

/-- The outcomes are the same, with the same cursor, and the reader keeps the file. -/
inductive SameOutcome (input : Input) :
    EStateM.Result DecodeError Reader α → EStateM.Result DecodeError Cursor α → Prop
  | ok (a : α) {reader : Reader} (h : reader.Fits input) :
      SameOutcome input (.ok a reader) (.ok a reader.cursor)
  | error (e : DecodeError) {reader : Reader} (h : reader.Fits input) :
      SameOutcome input (.error e reader) (.error e reader.cursor)

/-- With a reader that keeps the file, the session does what the decoder does. -/
def Refines (s : Session α) (m : Decoder α) : Prop :=
  ∀ input reader, reader.Fits input → SameOutcome input (s input reader) (m input reader.cursor)

namespace Refines

variable {s : Session α} {m : Decoder α}

theorem pure (a : α) : Refines (Pure.pure a) (Pure.pure a) := fun _ _ h => .ok a h

theorem throw (e : DecodeError) :
    Refines (MonadExcept.throw e : Session α) (MonadExcept.throw e) :=
  fun _ _ h => .error e h

theorem ofDecoder (m : Decoder α) : Refines (ofDecoder m) m := by
  intro input reader h
  have hfits (cursor : Cursor) : Reader.Fits input { reader with cursor } := h
  unfold Session.ofDecoder
  cases m input reader.cursor with
  | ok a cursor => exact .ok a (hfits cursor)
  | error e cursor => exact .error e (hfits cursor)

theorem bind {t : α → Session β} {f : α → Decoder β} (hs : Refines s m)
    (ht : ∀ a, Refines (t a) (f a)) : Refines (s >>= t) (m >>= f) := by
  intro input reader h
  have hfirst := hs input reader h
  rw [bind_apply, Decoder.bind_apply]
  generalize s input reader = x, m input reader.cursor = y at hfirst
  cases hfirst with
  | ok a h' => exact ht a input _ h'
  | error e h' => exact .error e h'

theorem listMapM {s : α → Session β} {m : α → Decoder β} (h : ∀ a, Refines (s a) (m a))
    (as : List α) : Refines (as.mapM s) (as.mapM m) := by
  induction as with
  | nil => exact .pure []
  | cons a rest ih =>
      rw [List.mapM_cons, List.mapM_cons]
      exact (h a).bind fun _ => ih.bind fun _ => .pure _

theorem mapM {s : α → Session β} {m : α → Decoder β} (h : ∀ a, Refines (s a) (m a))
    (as : Array α) : Refines (as.mapM s) (as.mapM m) := by
  rw [Array.mapM_eq_mapM_toList, Array.mapM_eq_mapM_toList, ← bind_pure_comp, ← bind_pure_comp]
  exact (listMapM h as.toList).bind fun _ => .pure _

theorem answer_eq (hr : Refines s m) (h : reader.Fits input) :
    s.answer input reader = m.answer input reader.cursor := by
  have hsame := hr input reader h
  unfold answer Decoder.answer
  generalize s input reader = x, m input reader.cursor = y at hsame
  cases hsame <;> rfl

theorem fits_after (hr : Refines s m) (h : reader.Fits input) :
    (s.after input reader).Fits input := by
  have hsame := hr input reader h
  unfold after
  generalize s input reader = x, m input reader.cursor = y at hsame
  cases hsame <;> assumption

end Refines

/-! ### Sections and slices -/

theorem image_apply (h : reader.Fits input) :
    image input reader = .ok input { reader with image? := some input } := by
  obtain ⟨cursor, image?⟩ := reader
  cases image? with
  | some kept =>
      obtain rfl := h kept rfl
      rfl
  | none =>
      -- The cursor goes to the start, from there to the end, and back to where it was.
      have hread : image input { cursor, image? := none } =
          .ok (input.extract 0 input.size)
            { cursor, image? := some (input.extract 0 input.size) } := rfl
      rwa [Array.extract_size] at hread

theorem refines_shared (offset length : ℕ) :
    Refines (shared offset length) (Decoder.bytesAt offset length) := by
  intro input reader h
  unfold shared
  rw [bind_apply, image_apply h, Decoder.bytesAt_apply]
  dsimp only
  have hfits : Reader.Fits input { reader with image? := some input } := by
    rintro _ ⟨⟩
    rfl
  cases input.window? offset length with
  | some bytes => exact .ok bytes hfits
  | none => exact .error (.truncated offset length) hfits

theorem refines_loadSection (s : Section) : Refines (loadSection s) (Slice.loadSection s) :=
  (refines_shared s.offset s.size).bind fun _ => .pure _

theorem refines_load (stubSize : StubSize) (layout : Layout) :
    Refines (load stubSize layout) (Slice.load stubSize layout) := by
  exact (Refines.ofDecoder _).bind fun _ => (Refines.ofDecoder _).bind fun _ =>
    (Refines.mapM refines_loadSection _).bind fun _ => .pure _

theorem refines_decode (stubSize : StubSize) (base : ℕ) :
    Refines (decode stubSize base) (Slice.decode stubSize base) :=
  (Refines.ofDecoder _).bind (refines_load stubSize)

theorem refines_parse (stubSize : StubSize) : Refines (parse stubSize) (Image.parse stubSize) := by
  unfold parse Image.parse
  refine (Refines.ofDecoder Image.decodeMagic).bind fun magic => ?_
  split
  · refine (Refines.ofDecoder decodeDirectory).bind fun directory => ?_
    refine .mapM (fun entry => ?_) directory
    exact refines_decode stubSize entry.offset.toNat
  · split
    · exact (refines_decode stubSize 0).bind fun _ => .pure _
    · exact .throw _

theorem refines_detect : Refines detect Image.detect := .ofDecoder _

/-! ### Reading in place -/

/-- Goes to a place and reads the bytes there. -/
def plain (offset length : ℕ) : Session (Array UInt8) := do
  ofDecoder (Decoder.seek offset)
  ofDecoder (Decoder.bytes length)

variable {offset length : ℕ}

theorem answer_shared (h : reader.Fits input) :
    (shared offset length).answer input reader =
      if offset + length ≤ input.size then .ok (input.extract offset (offset + length))
      else .error (.truncated offset length) := by
  rw [(refines_shared offset length).answer_eq h, Decoder.answer, Decoder.bytesAt_apply]
  by_cases hends : offset + length ≤ input.size <;>
    simp only [Input.window?, hends, if_true, if_false]

theorem refines_plain (offset length : ℕ) :
    Refines (plain offset length) (do Decoder.seek offset; Decoder.bytes length) :=
  (Refines.ofDecoder _).bind fun _ => .ofDecoder _

/-- No bytes at all can be read anywhere. -/
theorem answer_plain (h : reader.Fits input) :
    (plain offset length).answer input reader =
      if length = 0 then .ok #[]
      else if offset + length ≤ input.size then .ok (input.extract offset (offset + length))
      else .error (.truncated offset length) := by
  rw [(refines_plain offset length).answer_eq h, Decoder.answer,
    Decoder.bind_of_ok (Decoder.seek_apply input _ offset)]
  by_cases hzero : length = 0
  · subst hzero
    rfl
  · rw [Decoder.bytes_apply _ _ hzero, if_neg hzero]
    by_cases hends : offset + length ≤ input.size <;>
      simp only [Input.window?, hends, if_true, if_false]

/-- Only what the reader keeps changes, whether the bytes are there or not. -/
theorem after_shared (h : reader.Fits input) :
    (shared offset length).after input reader = { reader with image? := some input } := by
  unfold after shared
  rw [bind_apply, image_apply h]
  dsimp only
  cases input.window? offset length <;> rfl

/-- **The bytes of a section are those that are read in its place.**  Of a reader that keeps
nothing but the file, a range gives its bytes when it ends in the file, and fails else with
the range itself as what is missing.  Going to the place and reading gives the same, unless no
bytes are wanted at a place past the end: there are none to read, and still the range is out of
the file.  Taking bytes out of the file moves no cursor and changes no byte order. -/
theorem shared_eq_plain (h : reader.Fits input) (offset length : ℕ) :
    (shared offset length).answer input reader =
      (if offset + length ≤ input.size then .ok (input.extract offset (offset + length))
        else .error (.truncated offset length)) ∧
    (plain offset length).answer input reader =
      (if length = 0 ∧ input.size < offset then .ok #[]
        else (shared offset length).answer input reader) ∧
    ((shared offset length).after input reader).cursor = reader.cursor := by
  refine ⟨answer_shared h, ?_, by rw [after_shared h]⟩
  rw [answer_plain h, answer_shared h]
  by_cases hcase : length = 0 ∧ input.size < offset
  · rw [if_pos hcase.1, if_pos hcase]
  · rw [if_neg hcase]
    by_cases hzero : length = 0
    · have hends : offset + length ≤ input.size := by omega
      have hnone : input.extract offset (offset + length) = #[] :=
        Array.extract_empty_of_stop_le_start (Nat.le_of_eq (by omega))
      rw [if_pos hzero, if_pos hends, hnone]
    · rw [if_neg hzero]

/-- With a reader that stands elsewhere in another byte order and has kept the file, three bytes
are there either way, four are missing either way, and none past the end divide the two. -/
theorem shared_eq_plain_four :
    let file : Input := #[1, 2, 3, 4]
    let reader : Reader := { cursor := { position := 9, order := .big }, image? := some file }
    reader.Fits file ∧
    (shared 1 3).answer file reader = .ok #[2, 3, 4] ∧
    (plain 1 3).answer file reader = .ok #[2, 3, 4] ∧
    (plain 2 4).answer file reader = .error (.truncated 2 4) ∧
    (plain 5 0).answer file reader = .ok #[] ∧
    (shared 5 0).answer file reader = .error (.truncated 5 0) ∧
    ((shared 5 0).after file reader).cursor = { position := 9, order := .big } := by
  intro file reader
  have hfits : reader.Fits file := by
    rintro _ ⟨⟩
    rfl
  obtain ⟨hshared, hplain, -⟩ := shared_eq_plain hfits 1 3
  obtain ⟨hmissing, hmissing', -⟩ := shared_eq_plain hfits 2 4
  obtain ⟨hpast, hnone, hcursor⟩ := shared_eq_plain hfits 5 0
  rw [hshared] at hplain
  rw [hmissing] at hmissing'
  exact ⟨hfits, hshared, hplain, hmissing', hnone, hpast, hcursor⟩

/-- The two ways do not agree everywhere: past the end of a file of one byte, no bytes can be
read and cannot be taken out of the file. -/
theorem not_shared_eq_plain :
    ¬ ∀ (input : Input) (reader : Reader) (offset length : ℕ), reader.Fits input →
      (shared offset length).answer input reader = (plain offset length).answer input reader := by
  intro hall
  have h := hall #[1] {} 5 0 (Reader.fits_fresh _)
  rw [answer_shared (Reader.fits_fresh _), answer_plain (Reader.fits_fresh _)] at h
  cases h

end Session

end MachImage
