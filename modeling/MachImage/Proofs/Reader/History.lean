import MachImage.Proofs.Reader.Session
import MachImage.Proofs.Universal.Independence

/-! # What was done with a reader before

A reader comes with a past: its cursor stands where the last operation left it, in the byte
order of that operation, and it may have kept the file or not.  An operation that fails leaves
all three behind as they were when it failed.

No answer about the file depends on that past.  Each operation leaves a reader that keeps
nothing but the file (`Operation.fits_after`), hence so does every sequence of them
(`Reader.fits_afterAll`); and decoding a file, decoding a slice and recognising a file go to
their place and set their byte order by themselves. -/

namespace MachImage

inductive Operation where
  | seek (position : ℕ)
  | setOrder (order : ByteOrder)
  | u8
  | u16
  | u32
  | u64
  | word (width : Width)
  | bytes (length : ℕ)
  | name16
  /-- Takes bytes out of the file that is kept. -/
  | shared (offset length : ℕ)
  /-- Reads the directory of a universal file, from where the cursor stands. -/
  | directory
  /-- Reads the header and the load commands of the slice at `base`. -/
  | layout (base : ℕ)
  | detect
  | parse (stubSize : StubSize)
  /-- Reads the slice at `base`. -/
  | decode (stubSize : StubSize) (base : ℕ)
  deriving DecidableEq, Repr

/-- The reader that an operation leaves behind, whether it succeeds or fails. -/
def Operation.after (input : Input) (reader : Reader) : Operation → Reader
  | .seek position => (Session.ofDecoder (Decoder.seek position)).after input reader
  | .setOrder order => (Session.ofDecoder (Decoder.setOrder order)).after input reader
  | .u8 => (Session.ofDecoder Decoder.u8).after input reader
  | .u16 => (Session.ofDecoder Decoder.u16).after input reader
  | .u32 => (Session.ofDecoder Decoder.u32).after input reader
  | .u64 => (Session.ofDecoder Decoder.u64).after input reader
  | .word width => (Session.ofDecoder (Decoder.word width)).after input reader
  | .bytes length => (Session.ofDecoder (Decoder.bytes length)).after input reader
  | .name16 => (Session.ofDecoder Decoder.name16).after input reader
  | .shared offset length => (Session.shared offset length).after input reader
  | .directory => (Session.ofDecoder decodeDirectory).after input reader
  | .layout base => (Session.ofDecoder (Layout.decode base)).after input reader
  | .detect => Session.detect.after input reader
  | .parse stubSize => (Session.parse stubSize).after input reader
  | .decode stubSize base => (Session.decode stubSize base).after input reader

/-- The reader that a sequence of operations leaves behind, each starting where the one in
front of it came to a stop. -/
def Reader.afterAll (input : Input) (reader : Reader) (history : List Operation) : Reader :=
  history.foldl (Operation.after input) reader

variable {input : Input} {reader : Reader}

/-! ### What the reader keeps -/

theorem Operation.fits_after (op : Operation) (h : reader.Fits input) :
    (op.after input reader).Fits input := by
  cases op with
  | shared offset length => exact (Session.refines_shared offset length).fits_after h
  | detect => exact Session.refines_detect.fits_after h
  | parse stubSize => exact (Session.refines_parse stubSize).fits_after h
  | decode stubSize base => exact (Session.refines_decode stubSize base).fits_after h
  -- All others work with the cursor alone.
  | _ => exact (Session.Refines.ofDecoder _).fits_after h

theorem Reader.fits_afterAll (history : List Operation) (h : reader.Fits input) :
    (reader.afterAll input history).Fits input := by
  induction history generalizing reader with
  | nil => exact h
  | cons op rest ih => exact ih (op.fits_after h)

/-- A number that is cut off takes the cursor back from past the end, in the byte order that
was set last, and the file is kept once bytes of it were asked for. -/
example : Reader.afterAll #[1, 2, 3] {} [.setOrder .big, .seek 9, .u16, .shared 0 1] =
    { cursor := { position := 3, order := .big }, image? := some #[1, 2, 3] } := by
  decide

/-! ### Where the cursor stands -/

namespace Image

open Decoder

variable (input : Input) (c : Cursor)

/-- The first four bytes are looked at as when a file is decoded, but a lack of them is no
failure, and the byte order is put back. -/
theorem detect_apply :
    detect input c = match decodeMagic input c with
      | .ok magic c' => .ok (isMagic magic) { c' with order := c.order }
      | .error _ c' => .ok false { c' with order := c.order } := by
  unfold detect
  generalize decodeMagic = m
  have htry : (try pure (isMagic (← m)) catch _ => pure false : Decoder Bool) input c =
      match m input c with
      | .ok magic c' => .ok (isMagic magic) c'
      | .error _ c' => .ok false c' := by
    show EStateM.tryCatch ((m >>= fun magic => pure (isMagic magic) : Decoder Bool) input)
      (fun _ => (pure false : Decoder Bool) input) c = _
    unfold EStateM.tryCatch
    rw [bind_apply]
    cases m input c <;> rfl
  rw [bind_of_ok (order_apply input c), bind_apply, htry]
  cases m input c <;> rfl

/-- Whether a file starts with a magic number is told from its first four bytes, wherever the
cursor stands. -/
theorem answer_detect :
    detect.answer input c = .ok ((input.u32? .little 0).any isMagic) := by
  unfold answer
  rw [detect_apply, decodeMagic_apply]
  cases input.u32? .little 0 <;> rfl

end Image

/-! ### Answers -/

namespace Session

theorem answer_parse (stubSize : StubSize) (h : reader.Fits input) :
    (parse stubSize).answer input reader = (Image.parse stubSize).answer input {} := by
  rw [(refines_parse stubSize).answer_eq h, Image.answer_parse, Image.answer_parse]

theorem answer_decode (stubSize : StubSize) (base : ℕ) (h : reader.Fits input) :
    (decode stubSize base).answer input reader = (Slice.decode stubSize base).answer input {} := by
  rw [(refines_decode stubSize base).answer_eq h, Decoder.answer,
    Slice.decode_apply stubSize base input _ {}, ← Decoder.answer]

theorem answer_detect (h : reader.Fits input) :
    detect.answer input reader = Image.detect.answer input {} := by
  rw [refines_detect.answer_eq h, Image.answer_detect, Image.answer_detect]

/-- **The past of a reader does not show.**  Whatever has been done with the reader of a file,
and whether or not it succeeded, the file and the slice at any place are then decoded as with
a fresh reader, and the file is recognised as with one; decoding the file once more gives the
same again.  A fresh reader gives what the decoders give that keep nothing of the file. -/
theorem answer_after_history (input : Input) (history : List Operation) :
    let reader := Reader.afterAll input {} history
    (∀ stubSize, (parse stubSize).answer input reader = (parse stubSize).answer input {} ∧
      (parse stubSize).answer input ((Operation.parse stubSize).after input reader) =
        (parse stubSize).answer input reader ∧
      (parse stubSize).answer input {} = (Image.parse stubSize).answer input {}) ∧
    (∀ stubSize base,
      (decode stubSize base).answer input reader = (decode stubSize base).answer input {} ∧
      (decode stubSize base).answer input {} = (Slice.decode stubSize base).answer input {}) ∧
    detect.answer input reader = detect.answer input {} ∧
    detect.answer input {} = Image.detect.answer input {} := by
  intro reader
  have hfresh := Reader.fits_fresh input
  have hpast : reader.Fits input := Reader.fits_afterAll history hfresh
  refine ⟨fun stubSize => ⟨?_, ?_, answer_parse stubSize hfresh⟩,
    fun stubSize base => ⟨?_, answer_decode stubSize base hfresh⟩, ?_, answer_detect hfresh⟩
  · rw [answer_parse stubSize hpast, answer_parse stubSize hfresh]
  · have hagain := (Operation.parse stubSize).fits_after hpast
    rw [answer_parse stubSize hagain, answer_parse stubSize hpast]
  · rw [answer_decode stubSize base hpast, answer_decode stubSize base hfresh]
  · rw [answer_detect hpast, answer_detect hfresh]

end Session

end MachImage
