import MachImage.Proofs.Reader.History
import MachImage.Proofs.Reader.Session

/-! # Recognising a file in between

A file can be recognised at any time, between any two other things that are done with its
reader.  `Operation.answer` is what an operation gives and `Reader.answers` what a sequence of
them gives, so that one can tell what recognising the file changes for those that follow.

It changes one thing.  The byte order and what the reader keeps are as before, but the cursor
stands behind the four bytes that were looked at, or at the end of a file that has fewer
(`Operation.after_detect`).  This is not noticed by operations that go to their place by
themselves, nor by those that have no use for the cursor (`Reader.answers_after_detect`).
A number that is read next is another one, though (`Reader.not_answers_after_detect`). -/

namespace MachImage

/-! ### What operations give -/

namespace Operation

def Value : Operation → Type
  | seek _ | setOrder _ => Unit
  | u8 => UInt8
  | u16 => UInt16
  | u32 => UInt32
  | u64 | word _ => UInt64
  | bytes _ | shared .. => Array UInt8
  | name16 => String
  | directory => Array DirectoryEntry
  | layout _ => Layout
  | detect => Bool
  | parse _ => Array Slice
  | decode .. => Slice

def session : (op : Operation) → Session op.Value
  | seek position => Session.ofDecoder (Decoder.seek position)
  | setOrder order => Session.ofDecoder (Decoder.setOrder order)
  | u8 => Session.ofDecoder Decoder.u8
  | u16 => Session.ofDecoder Decoder.u16
  | u32 => Session.ofDecoder Decoder.u32
  | u64 => Session.ofDecoder Decoder.u64
  | word width => Session.ofDecoder (Decoder.word width)
  | bytes length => Session.ofDecoder (Decoder.bytes length)
  | name16 => Session.ofDecoder Decoder.name16
  | shared offset length => Session.shared offset length
  | directory => Session.ofDecoder decodeDirectory
  | layout base => Session.ofDecoder (Layout.decode base)
  | detect => Session.detect
  | parse stubSize => Session.parse stubSize
  | decode stubSize base => Session.decode stubSize base

def answer (op : Operation) (input : Input) (reader : Reader) : Except DecodeError op.Value :=
  op.session.answer input reader

theorem after_eq (op : Operation) (input : Input) (reader : Reader) :
    op.after input reader = op.session.after input reader := by
  cases op <;> rfl

end Operation

/-- What the operations of a sequence give, each starting where the one in front of it came to
a stop. -/
def Reader.answers (input : Input) (reader : Reader) :
    List Operation → List (Σ op : Operation, Except DecodeError op.Value)
  | [] => []
  | op :: rest => ⟨op, op.answer input reader⟩ :: answers input (op.after input reader) rest

def Reader.movedTo (reader : Reader) (position : ℕ) : Reader :=
  { reader with cursor := { reader.cursor with position } }

variable {input : Input} {reader : Reader}

theorem Reader.Fits.movedTo (h : reader.Fits input) (position : ℕ) :
    (reader.movedTo position).Fits input := h

theorem Reader.answers_append (first later : List Operation) :
    reader.answers input (first ++ later) =
      reader.answers input first ++ (reader.afterAll input first).answers input later := by
  induction first generalizing reader with
  | nil => rfl
  | cons op rest ih =>
      rw [List.cons_append, answers, answers, ih, List.cons_append]
      rfl

theorem Reader.afterAll_append (first later : List Operation) :
    reader.afterAll input (first ++ later) =
      (reader.afterAll input first).afterAll input later :=
  List.foldl_append

/-! ### The cursor -/

namespace Operation

/-- The operation goes to its place by itself. -/
def GoesToPlace : Operation → Prop
  | seek _ | layout _ | detect | parse _ | decode .. => True
  | _ => False

/-- The operation neither looks where the cursor stands nor takes it elsewhere. -/
def KeepsPlace : Operation → Prop
  | setOrder _ | shared .. => True
  | bytes length => length = 0
  | _ => False

variable {op : Operation} {position : ℕ}

/-- Where the cursor stands is forgotten by an operation that goes to its place. -/
theorem session_movedTo (h : op.GoesToPlace) :
    op.session input (reader.movedTo position) = op.session input reader := by
  cases op with
  | seek q => rfl
  | layout base => rfl
  | detect => rfl
  | parse stubSize => rfl
  | decode stubSize base => rfl
  | _ => exact h.elim

theorem answer_movedTo_of_goesToPlace (h : op.GoesToPlace) :
    op.answer input (reader.movedTo position) = op.answer input reader := by
  rw [answer, answer, Session.answer, session_movedTo h, ← Session.answer]

theorem after_movedTo_of_goesToPlace (h : op.GoesToPlace) :
    op.after input (reader.movedTo position) = op.after input reader := by
  rw [after_eq, after_eq, Session.after, session_movedTo h, ← Session.after]

theorem answer_movedTo_of_keepsPlace (hfits : reader.Fits input) (h : op.KeepsPlace) :
    op.answer input (reader.movedTo position) = op.answer input reader := by
  cases op with
  | setOrder order => rfl
  | bytes length =>
      obtain rfl : length = 0 := h
      rfl
  | shared offset length =>
      exact (Session.answer_shared (hfits.movedTo position)).trans
        (Session.answer_shared hfits).symm
  | _ => exact h.elim

theorem after_movedTo_of_keepsPlace (hfits : reader.Fits input) (h : op.KeepsPlace) :
    op.after input (reader.movedTo position) = (op.after input reader).movedTo position := by
  cases op with
  | setOrder order => rfl
  | bytes length =>
      obtain rfl : length = 0 := h
      rfl
  | shared offset length =>
      rw [after, after, Session.after_shared (hfits.movedTo position), Session.after_shared hfits]
      rfl
  | _ => exact h.elim

/-- The cursor is left behind the bytes that were looked at.  Nothing else changes. -/
theorem after_detect (input : Input) (reader : Reader) :
    detect.after input reader = reader.movedTo (min 4 input.size) := by
  have hmagic := Image.decodeMagic_apply input reader.cursor
  have hdetect := Image.detect_apply input reader.cursor
  rw [after_eq, Session.after, session, Session.detect, Session.ofDecoder, hdetect, hmagic]
  cases hword : input.u32? .little 0 with
  | some magic =>
      have hsize := Input.le_size_of_u32? hword
      have hmin : min 4 input.size = 4 := by omega
      rw [hmin]
      rfl
  | none =>
      have hsize := Input.u32?_eq_none.mp hword
      have hmin : min 4 input.size = input.size := by omega
      rw [hmin]
      rfl

end Operation

namespace Reader

variable {position : ℕ}

/-- Operations without a use for the cursor give the same wherever it stands, and leave it
there. -/
theorem movedTo_of_keepsPlace (hfits : reader.Fits input) {quiet : List Operation}
    (h : ∀ op ∈ quiet, op.KeepsPlace) :
    (reader.movedTo position).answers input quiet = reader.answers input quiet ∧
      (reader.movedTo position).afterAll input quiet =
        (reader.afterAll input quiet).movedTo position := by
  induction quiet generalizing reader with
  | nil => exact ⟨rfl, rfl⟩
  | cons op rest ih =>
      obtain ⟨hop, hrest⟩ := List.forall_mem_cons.mp h
      obtain ⟨hanswers, hafter⟩ := ih (op.fits_after hfits) hrest
      constructor
      · rw [answers, answers, Operation.answer_movedTo_of_keepsPlace hfits hop,
          Operation.after_movedTo_of_keepsPlace hfits hop, hanswers]
      · rw [afterAll, List.foldl_cons, Operation.after_movedTo_of_keepsPlace hfits hop]
        exact hafter

/-- Once an operation goes to its place, it is forgotten where the cursor stood. -/
theorem movedTo_of_goesToPlace {op : Operation} (h : op.GoesToPlace) (rest : List Operation) :
    (reader.movedTo position).answers input (op :: rest) = reader.answers input (op :: rest) ∧
      (reader.movedTo position).afterAll input (op :: rest) =
        reader.afterAll input (op :: rest) := by
  constructor
  · rw [answers, answers, Operation.answer_movedTo_of_goesToPlace h,
      Operation.after_movedTo_of_goesToPlace h]
  · rw [afterAll, List.foldl_cons, Operation.after_movedTo_of_goesToPlace h]
    rfl

/-- **Recognising a file moves the cursor and does nothing else.**  After anything that was done
with a reader, it takes the cursor behind the first four bytes, or to the end of a file that
has fewer, and leaves the byte order and what the reader keeps as they were.  So operations
that have no use for the cursor give the same afterwards and leave the reader as they would
have, but for its place; and all that follows from the first operation on that goes to its
place is the same altogether. -/
theorem answers_after_detect (input : Input) (history : List Operation) :
    let reader := Reader.afterAll input {} history
    let behind := Operation.detect.after input reader
    behind = reader.movedTo (min 4 input.size) ∧
    ∀ quiet : List Operation, (∀ op ∈ quiet, op.KeepsPlace) →
      (behind.answers input quiet = reader.answers input quiet ∧
        behind.afterAll input quiet =
          (reader.afterAll input quiet).movedTo (min 4 input.size)) ∧
      ∀ op rest, op.GoesToPlace →
        behind.answers input (quiet ++ op :: rest) =
            reader.answers input (quiet ++ op :: rest) ∧
          behind.afterAll input (quiet ++ op :: rest) =
            reader.afterAll input (quiet ++ op :: rest) := by
  intro reader behind
  have hfits : reader.Fits input := fits_afterAll history (fits_fresh input)
  have hbehind : behind = reader.movedTo (min 4 input.size) :=
    Operation.after_detect input reader
  refine ⟨hbehind, fun quiet hquiet => ?_⟩
  obtain ⟨hanswers, hafter⟩ := @movedTo_of_keepsPlace _ _ (min 4 input.size) hfits _ hquiet
  rw [hbehind]
  refine ⟨⟨hanswers, hafter⟩, fun op rest hop => ?_⟩
  obtain ⟨hlater, hend⟩ := @movedTo_of_goesToPlace input (reader.afterAll input quiet)
    (min 4 input.size) op hop rest
  constructor
  · rw [answers_append, answers_append, hanswers, hafter, hlater]
  · rw [afterAll_append, afterAll_append, hafter, hend]

/-- A reader stands at the third byte in big-endian order when its file is recognised, and is
taken to the fifth.  Bytes of a section are the same as before, and so is a number once its
place is sought. -/
theorem answers_after_detect_seek :
    let file : Input := #[0xCE, 0xFA, 0xED, 0xFE, 7, 0]
    let reader := Reader.afterAll file {} [.setOrder .big, .seek 1, .u8]
    let behind := Operation.detect.after file reader
    let quiet : List Operation := [.shared 1 2, .bytes 0]
    (∀ op ∈ quiet, op.KeepsPlace) ∧ (Operation.seek 1).GoesToPlace ∧
      reader.cursor = ⟨2, .big⟩ ∧ behind.cursor = ⟨4, .big⟩ ∧
      behind.answers file quiet = reader.answers file quiet ∧
      behind.answers file (quiet ++ .seek 1 :: [.u16]) =
        reader.answers file (quiet ++ .seek 1 :: [.u16]) ∧
      behind.afterAll file (quiet ++ .seek 1 :: [.u16]) =
        reader.afterAll file (quiet ++ .seek 1 :: [.u16]) := by
  intro file reader behind quiet
  have hquiet : ∀ op ∈ quiet, op.KeepsPlace := by
    intro op hop
    rcases List.mem_pair.mp hop with rfl | rfl
    · exact trivial
    · rfl
  have hplace : (Operation.seek 1).GoesToPlace := trivial
  have hcursor : reader.cursor = ⟨2, .big⟩ := by decide
  obtain ⟨hbehind, hlater⟩ :=
    answers_after_detect file [.setOrder .big, .seek 1, .u8]
  obtain ⟨⟨hanswers, -⟩, hall⟩ := hlater quiet hquiet
  obtain ⟨hrest, hend⟩ := hall (.seek 1) [.u16] hplace
  have hmoved : behind.cursor = { reader.cursor with position := 4 } :=
    congrArg Reader.cursor hbehind
  exact ⟨hquiet, hplace, hcursor, by rw [hmoved, hcursor], hanswers, hrest, hend⟩

/-- Recognition is noticed by what reads on from the cursor: the first byte of a file is no
longer the next one, and the cursor ends elsewhere. -/
theorem not_answers_after_detect :
    ¬ ∀ (input : Input) (history later : List Operation),
      let reader := Reader.afterAll input {} history
      let behind := Operation.detect.after input reader
      behind.answers input later = reader.answers input later ∧
        (behind.afterAll input later).cursor = (reader.afterAll input later).cursor := by
  intro hall
  obtain ⟨hanswers, -⟩ := hall #[1, 2, 3, 4, 5] [] [.u8]
  have hbytes : (Except.ok 5 : Except DecodeError UInt8) = .ok 1 :=
    eq_of_heq (Sigma.mk.inj (List.cons.inj hanswers).1).2
  exact absurd hbytes (by decide)

end Reader

end MachImage
