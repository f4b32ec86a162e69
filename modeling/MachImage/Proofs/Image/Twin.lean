import MachImage.Proofs.Decoder.Extent
import MachImage.Proofs.Image.Counts
import MachImage.Proofs.Image.Detection
import MachImage.Proofs.Slice.Mirror

/-! # Files in the opposite byte order

A file that is a single slice has a twin, with the same fields in the opposite byte order.  The
decoder reads it as the same slice, if its magic number is the one that the decoder knows for
that order (`Image.parse_of_twin`).  This number is not the magic number of the file the other way
round: the numbers for files with the highest byte first, `0xECAFDEEF` and `0xFCAFDEEF`, have the
digits of the others in reverse, and not their bytes.  A file that starts with the bytes of a
magic number in reverse is not recognised, in whichever order the rest of it is
(`Image.not_detect_eq_true_iff_of_twin`). -/

namespace MachImage

open Decoder

theorem Input.range_of_u32? {input : Input} {order : ByteOrder} {p : ℕ} {n : UInt32}
    (h : input.u32? order p = some n) : input.range p 4 = order.bytes 4 n.toNat := by
  have hrun : u32 input ⟨p, order⟩ = .ok n ⟨p + 4, order⟩ := by
    rw [u32_apply, h]
  obtain ⟨k, hk, -, hbytes⟩ := spells_u32 input p n _ hrun
  have hlength : k = 4 := by
    have hposition := congrArg Cursor.position hk
    dsimp only at hposition
    omega
  rwa [hlength] at hbytes

def swapBytes (n : UInt32) : UInt32 :=
  UInt32.ofNat (ByteOrder.big.value (ByteOrder.little.bytes 4 n.toNat))

section swapped

variable {a b : Input} {p : ℕ} {n : UInt32}

theorem Input.u32?_swapBytes (ha : a.u32? .little p = some n)
    (h : b.range p 4 = (a.range p 4).reverse) : b.u32? .little p = some (swapBytes n) := by
  have hlength : (b.range p 4).length = 4 := by
    rw [h, List.length_reverse, range_of_u32? ha, ByteOrder.length_bytes]
  have hinside : p + 4 ≤ b.size := (le_size_of_length_range hlength).resolve_left (by decide)
  cases hb : b.u32? .little p with
  | none =>
      have hshort := u32?_eq_none.mp hb
      omega
  | some first =>
      rw [range_of_u32? ha, range_of_u32? hb] at h
      have hvalue := congrArg ByteOrder.little.value h
      rw [ByteOrder.value_bytes .little first.toNat_lt] at hvalue
      rw [Option.some.injEq, ← UInt32.ofNat_toNat (x := first), hvalue]
      rfl

/-- The numbers that slices start with are no magic numbers with their bytes in reverse. -/
theorem not_isMagic_swapBytes {base : ℕ} {frame : Frame}
    (h : Frame.ofMagic? n base = some frame) : ¬ isMagic (swapBytes n) := by
  have hswapped : ([0xFEEDFACE, 0xFEEDFACF, 0xECAFDEEF, 0xFCAFDEEF] : List UInt32).all
      fun m => !isMagic (swapBytes m) := by decide
  suffices hn : n ∈ ([0xFEEDFACE, 0xFEEDFACF, 0xECAFDEEF, 0xFCAFDEEF] : List UInt32) by
    simpa using List.all_eq_true.mp hswapped n hn
  by_contra hn
  simp only [List.mem_cons, List.not_mem_nil, or_false, not_or] at hn
  rw [Frame.ofMagic?, if_neg hn.1, if_neg hn.2.1, if_neg hn.2.2.1, if_neg hn.2.2.2] at h
  cases h

end swapped

namespace Image

variable {a b : Input} {frame : Frame}

theorem detect_of_startsSlice (h : a.StartsSlice 0 frame) (c : Cursor) :
    detect.answer a c = .ok true := by
  obtain ⟨magic, hmagic, hframe⟩ := h
  refine detect_eq_true_iff.mpr ⟨magic, hmagic, ?_⟩
  rw [isMagic, hframe]
  rfl

/-- **A slice is decoded in either byte order, once the decoder knows it for one.**  Let two files
have the same fields in opposite byte orders, the first of them with a magic number of this
decoder.  If the second one starts with the magic number of the decoder for its order, both are
recognised, and the second one gives the same slice as the first or fails for the same bytes; only
the byte order of the slice, and the bytes of its symbol tables, are those of the second file.
If it starts with the magic number of the first file in its own order instead, it is not
recognised, and is refused for these four bytes. -/
theorem parse_of_twin (stubSize : StubSize) (hstart : a.StartsSlice 0 frame)
    (htwin : Twin a b frame) (c c' : Cursor) :
    detect.answer a c = .ok true ∧
    (b.StartsSlice 0 frame.opposite →
      detect.answer b c' = .ok true ∧
      (parse stubSize).answer b c' =
        ((parse stubSize).answer a c).map (Array.map (Slice.mirrored b))) ∧
    (b.range 0 4 = (a.range 0 4).reverse →
      detect.answer b c' = .ok false ∧
      ∃ magic, a.u32? .little 0 = some magic ∧
        (parse stubSize).answer b c' = .error (.unsupportedMagic (swapBytes magic))) := by
  have ⟨magic, hmagic, hframe⟩ := hstart
  have hbase : frame.base = 0 := Frame.base_of_ofMagic? hframe
  refine ⟨detect_of_startsSlice hstart c, fun hb => ?_, fun hreverse => ?_⟩
  · refine ⟨detect_of_startsSlice hb c', ?_⟩
    have hdecode := Slice.answer_decode_mirrored stubSize htwin (hbase ▸ hstart) (hbase ▸ hb)
    rw [hbase] at hdecode
    rw [answer_parse_slice hb, answer_parse_slice hstart, hdecode]
    cases (Slice.decode stubSize 0).answer a {} with
    | error e => rfl
    | ok slice => exact congrArg Except.ok Array.map_singleton.symm
  · have hfirst := Input.u32?_swapBytes hmagic hreverse
    have hunknown := not_isMagic_swapBytes hframe
    refine ⟨?_, magic, hmagic, answer_parse_of_not_isMagic hfirst hunknown⟩
    rw [answer_detect, hfirst, Option.any_some, Bool.eq_false_iff.mpr hunknown]

/-- An object with a symbol and a path to search.  In both byte orders it is the same object, but
for the bytes of its symbol table; with the magic number in the order of the rest it is not
recognised. -/
theorem parse_of_twin_object :
    let words (order : ByteOrder) (ns : List ℕ) : List UInt8 := ns.flatMap (order.bytes 4)
    let file (magic : List UInt8) (order : ByteOrder) : Input := (magic ++
      words order [12, 0, 2, 2, 44, 0, 2, 24, 76, 1, 72, 4, 0x8000001C, 20, 12] ++
      [0x40, 0x62, 0x69, 0x6E, 0x2F, 0, 0, 0] ++ [0, 0x66, 0, 0] ++
      words order [1] ++ [0x0F, 1] ++ order.bytes 2 8 ++ words order [0x1114]).toArray
    let little := file [0xCE, 0xFA, 0xED, 0xFE] .little
    let big := file [0xEF, 0xDE, 0xAF, 0xEC] .big
    let standard := file [0xFE, 0xED, 0xFA, 0xCE] .big
    ∃ slice, (parse .legacy).answer little {} = .ok #[slice] ∧
      (parse .legacy).answer big {} = .ok #[slice.mirrored big] ∧
      detect.answer standard {} = .ok false ∧
      slice.symbols.symbols.map (fun s => (s.name?, s.value)) = #[(some "f", 0x1114)] ∧
      slice.loadInfo.rpaths = #["@bin/"] := by
  intro words file little big standard
  let frame : Frame := { width := .bits32, order := .little, base := 0 }
  have hstart : little.StartsSlice 0 frame := ⟨0xFEEDFACE, by decide, rfl⟩
  have hbig : big.StartsSlice 0 frame.opposite := ⟨0xECAFDEEF, by decide, rfl⟩
  have htwin : Twin little big frame := by decide +kernel
  have htwin' : Twin little standard frame := by decide +kernel
  have hread : ((Slice.decode .legacy 0).answer little {}).toOption.map (fun slice =>
      (slice.symbols.symbols.map (fun s => (s.name?, s.value)), slice.loadInfo.rpaths)) =
        some (#[(some "f", 0x1114)], #["@bin/"]) := by
    decide +kernel
  obtain ⟨slice, hdecode, hvalues⟩ := exists_of_toOption_map hread
  obtain ⟨hsymbols, hrpaths⟩ := Prod.mk.inj hvalues
  have hlittle : (parse .legacy).answer little {} = .ok #[slice] := by
    rw [answer_parse_slice hstart, hdecode]
    rfl
  obtain ⟨-, hsame, -⟩ := parse_of_twin .legacy hstart htwin {} {}
  obtain ⟨-, -, hrefused⟩ := parse_of_twin .legacy hstart htwin' {} {}
  obtain ⟨-, hparse⟩ := hsame hbig
  obtain ⟨hdetected, -⟩ := hrefused (by decide)
  rw [hlittle, Except.map, Array.map_singleton] at hparse
  exact ⟨slice, hlittle, hparse, hdetected, hsymbols, hrpaths⟩

/-- The header of an executable for x86 and its twin, which starts with the bytes `FE ED FA CE`. -/
theorem not_detect_eq_true_iff_of_twin :
    let words (order : ByteOrder) (ns : List ℕ) : List UInt8 := ns.flatMap (order.bytes 4)
    let file (order : ByteOrder) : Input := (words order [0xFEEDFACE, 7, 3, 2, 0, 0, 0]).toArray
    (file .little).StartsSlice 0 { width := .bits32, order := .little, base := 0 } ∧
      Twin (file .little) (file .big) { width := .bits32, order := .little, base := 0 } ∧
      (file .big).range 0 4 = ((file .little).range 0 4).reverse ∧
      ¬ (detect.answer (file .big) {} = .ok true ↔ detect.answer (file .little) {} = .ok true) := by
  intro words file
  refine ⟨⟨0xFEEDFACE, by decide, rfl⟩, by decide, by decide, ?_⟩
  decide

end Image

end MachImage
