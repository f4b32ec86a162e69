import MachImage.Image
import MachImage.Header
import MachImage.Proofs.Decoder.Reading
import MachImage.Proofs.Slice.Relocation

/-! # Universal files

A `Container` is what a universal file is made of: a magic number, its members in the order
of the directory, and a filler, the bytes that stand where neither the directory nor a slice
does.  The file itself (`Container.bytes`) is the filler with the directory and all slices
put into it.  As no two of these parts share a byte, the file holds every one of them, in
whatever order they are put there (`holdsAt_foldl_put`).

The slices of such a file are those that its members give on their own, in the order of the
directory and each one as far on as its member stands (`Container.parse_bytes`).  The parser
reads the directory off the start of the file (`decodeMagic_bytes`, `reads_entries`) and leaves
the byte order of the directory behind; a slice then sets the byte order by itself, so that it
does not matter in which one it starts. -/

namespace MachImage

/-! ### Parts of a file -/

/-- Some bytes and where they belong in a file. -/
structure Part where
  offset : ℕ
  bytes : List UInt8

namespace Part

def stop (part : Part) : ℕ := part.offset + part.bytes.length

/-- Two parts share no position. -/
def Apart (p q : Part) : Prop :=
  ∀ i, ¬ ((p.offset ≤ i ∧ i < p.stop) ∧ (q.offset ≤ i ∧ i < q.stop))

theorem Apart.symm {p q : Part} (h : p.Apart q) : q.Apart p := fun i hi => h i hi.symm

end Part

namespace Input

variable {input : Input} {p q : Part}

/-- The file with a part in place of the bytes that stood there. -/
def put (input : Input) (part : Part) : Input :=
  input.extract 0 part.offset ++ part.bytes.toArray ++ input.extract part.stop

theorem size_put (h : p.stop ≤ input.size) : (input.put p).size = input.size := by
  unfold Part.stop at h
  simp only [put, Part.stop, Array.size_append, Array.size_extract, List.size_toArray]
  omega

theorem holdsAt_put (h : p.stop ≤ input.size) : (input.put p).HoldsAt p.offset p.bytes := by
  unfold Part.stop at h
  refine ⟨input.extract 0 p.offset, input.extract p.stop, rfl, ?_⟩
  rw [Array.size_extract]
  omega

theorem getElem?_put (h : p.stop ≤ input.size) {i : ℕ} (hi : ¬ (p.offset ≤ i ∧ i < p.stop)) :
    (input.put p)[i]? = input[i]? := by
  unfold Part.stop at h hi
  have hbefore : (input.extract 0 p.offset).size = p.offset := by
    rw [Array.size_extract]
    omega
  unfold put Part.stop
  by_cases hlt : i < p.offset
  · rw [Array.append_assoc, Array.getElem?_append_left (by omega), Array.getElem?_extract]
    simp only [Nat.zero_add]
    rw [if_pos (by omega)]
  · rw [Array.getElem?_append_right (by simp only [Array.size_append, List.size_toArray]; omega),
      Array.getElem?_extract]
    simp only [Array.size_append, List.size_toArray, hbefore]
    split
    · congr 1
      omega
    · rw [Array.getElem?_eq_none (by omega)]

/-- A part stays where it is when one apart from it is put into the file. -/
theorem HoldsAt.put (hq : input.HoldsAt q.offset q.bytes) (h : p.stop ≤ input.size)
    (hapart : p.Apart q) : (input.put p).HoldsAt q.offset q.bytes := by
  refine holdsAt_of_getElem? ?_ fun i hi => ?_
  · rw [size_put h]
    exact hq.size_le
  · rw [getElem?_put h fun hp => hapart _ ⟨hp, by omega, by unfold Part.stop; omega⟩]
    exact hq.getElem? hi

theorem HoldsAt.foldl_put {parts : List Part} (hq : input.HoldsAt q.offset q.bytes)
    (h : ∀ p ∈ parts, p.stop ≤ input.size) (hapart : ∀ p ∈ parts, p.Apart q) :
    (parts.foldl Input.put input).HoldsAt q.offset q.bytes := by
  induction parts generalizing input with
  | nil => exact hq
  | cons p rest ih =>
      have hp := h p List.mem_cons_self
      refine ih (hq.put hp (hapart p List.mem_cons_self)) ?_ ?_
      · intro r hr
        rw [size_put hp]
        exact h r (List.mem_cons_of_mem p hr)
      · exact fun r hr => hapart r (List.mem_cons_of_mem p hr)

/-- A file holds all parts that were put into it, as none of them covers a byte of another. -/
theorem holdsAt_foldl_put {parts : List Part} (h : ∀ p ∈ parts, p.stop ≤ input.size)
    (hapart : parts.Pairwise Part.Apart) (hq : q ∈ parts) :
    (parts.foldl put input).HoldsAt q.offset q.bytes := by
  induction parts generalizing input with
  | nil => cases hq
  | cons p rest ih =>
      obtain ⟨hfirst, hrest⟩ := List.pairwise_cons.mp hapart
      have hp := h p List.mem_cons_self
      have hsizes : ∀ r ∈ rest, r.stop ≤ (input.put p).size := by
        intro r hr
        rw [size_put hp]
        exact h r (List.mem_cons_of_mem p hr)
      rw [List.foldl_cons]
      cases List.mem_cons.mp hq with
      | inl hqp =>
          subst hqp
          exact (holdsAt_put hp).foldl_put hsizes fun r hr => (hfirst r hr).symm
      | inr hqr => exact ih hsizes hrest hqr

end Input

/-! ### Members -/

/-- A slice of a universal file, and what its entry of the directory says. -/
structure Member where
  cpuType : UInt32
  cpuSubtype : UInt32
  offset : UInt32
  size : UInt32
  align : UInt32
  slice : List UInt8

namespace Member

/-- The slice where the directory says that it starts. -/
def part (m : Member) : Part := ⟨m.offset.toNat, m.slice⟩

def entry (m : Member) : DirectoryEntry := ⟨m.offset, m.size, m.align⟩

def record (m : Member) : List UInt8 :=
  ByteOrder.big.bytes 4 m.cpuType.toNat ++ ByteOrder.big.bytes 4 m.cpuSubtype.toNat ++
    ByteOrder.big.bytes 4 m.offset.toNat ++ ByteOrder.big.bytes 4 m.size.toNat ++
    ByteOrder.big.bytes 4 m.align.toNat

theorem length_record (m : Member) : m.record.length = 20 := by
  simp [record]

theorem reads_record (m : Member) :
    Decoder.Reads .big DirectoryEntry.decode m.record m.entry := by
  unfold record
  simp only [List.append_assoc]
  refine (Decoder.reads_u32 m.cpuType).bind ?_
  refine (Decoder.reads_u32 m.cpuSubtype).bind ?_
  refine (Decoder.reads_u32 m.offset).bind ?_
  refine (Decoder.reads_u32 m.size).bind ?_
  exact (Decoder.reads_u32 m.align).bind_pure

end Member

/-! ### Containers -/

/-- What a universal file is made of.  The slices stand behind the directory, none of them
shares a byte with another, and the filler reaches as far as all of them. -/
structure Container where
  magic : UInt32
  members : List Member
  filler : Input
  isUniversal : isUniversalMagic magic
  behind : ∀ m ∈ members, 8 + 20 * members.length ≤ m.offset.toNat
  apart : (members.map Member.part).Pairwise Part.Apart
  directory_le : 8 + 20 * members.length ≤ filler.size
  stop_le : ∀ m ∈ members, m.part.stop ≤ filler.size

namespace Container

variable (container : Container)

/-- The entries of all members, and their count in front. -/
def entries : List UInt8 :=
  ByteOrder.big.bytes 4 container.members.length ++ container.members.flatMap Member.record

/-- The magic number and the entries, at the start of the file. -/
def directory : Part := ⟨0, ByteOrder.little.bytes 4 container.magic.toNat ++ container.entries⟩

def bytes : Input :=
  (container.directory :: container.members.map Member.part).foldl Input.put container.filler

theorem length_flatMap_record (members : List Member) :
    (members.flatMap Member.record).length = 20 * members.length := by
  induction members with
  | nil => rfl
  | cons m rest ih =>
      rw [List.flatMap_cons, List.length_append, Member.length_record, ih, List.length_cons]
      omega

theorem stop_directory : container.directory.stop = 8 + 20 * container.members.length := by
  simp only [Part.stop, directory, entries, List.length_append, ByteOrder.length_bytes,
    length_flatMap_record]
  omega

theorem apart_parts :
    (container.directory :: container.members.map Member.part).Pairwise Part.Apart := by
  refine List.pairwise_cons.mpr ⟨fun p hp i hi => ?_, container.apart⟩
  obtain ⟨m, hm, rfl⟩ := List.mem_map.mp hp
  have hbehind : container.directory.stop ≤ m.part.offset := by
    rw [stop_directory]
    exact container.behind m hm
  omega

theorem stop_le_size :
    ∀ p ∈ container.directory :: container.members.map Member.part,
      p.stop ≤ container.filler.size := by
  intro p hp
  cases List.mem_cons.mp hp with
  | inl h =>
      rw [h, stop_directory]
      exact container.directory_le
  | inr h =>
      obtain ⟨m, hm, rfl⟩ := List.mem_map.mp h
      exact container.stop_le m hm

theorem holdsAt_directory :
    container.bytes.HoldsAt 0
      (ByteOrder.little.bytes 4 container.magic.toNat ++ container.entries) :=
  Input.holdsAt_foldl_put container.stop_le_size container.apart_parts List.mem_cons_self

theorem holdsAt_slice {m : Member} (hm : m ∈ container.members) :
    container.bytes.HoldsAt m.offset.toNat m.slice :=
  Input.holdsAt_foldl_put container.stop_le_size container.apart_parts
    (List.mem_cons_of_mem _ (List.mem_map_of_mem hm))

/-- The members can be counted in four bytes, as the offsets behind the directory fit four
bytes. -/
theorem length_members_lt : container.members.length < 256 ^ 4 := by
  cases hm : container.members with
  | nil => decide
  | cons m rest =>
      have hbehind := container.behind m (by rw [hm]; exact List.mem_cons_self)
      have hoffset := m.offset.toNat_lt
      rw [hm] at hbehind
      omega

theorem reads_entries :
    Decoder.Reads .big (do Decoder.repeated (← Decoder.u32).toNat DirectoryEntry.decode)
      container.entries (container.members.map Member.entry).toArray := by
  have hcount : Decoder.Reads .big (Decoder.number 4) _ container.members.length :=
    Decoder.reads_number container.length_members_lt
  refine (hcount.bind_pure (f := UInt32.ofNat)).bind ?_
  rw [UInt32.toNat_ofNat_of_lt' container.length_members_lt]
  exact Decoder.reads_repeated container.members fun m _ => m.reads_record

end Container

/-! ### Decoding -/

namespace Container

open Decoder

variable (container : Container)

theorem decodeMagic_bytes (c : Cursor) :
    Image.decodeMagic container.bytes c = .ok container.magic ⟨4, .little⟩ := by
  unfold Image.decodeMagic
  rw [bind_of_ok (seek_apply _ c 0), bind_of_ok (setOrder_apply _ _ .little)]
  exact reads_u32 container.magic _ _ container.holdsAt_directory.left

theorem decodeDirectory_bytes :
    ∃ c, decodeDirectory container.bytes ⟨4, .little⟩ =
      .ok (container.members.map Member.entry).toArray c := by
  unfold decodeDirectory
  rw [bind_of_ok (setOrder_apply _ _ .big)]
  have hentries := container.holdsAt_directory.right
  rw [ByteOrder.length_bytes] at hentries
  exact ⟨_, container.reads_entries _ _ hentries⟩

/-- A member that gives a slice on its own gives it in the file, where the member stands. -/
theorem decode_bytes (stubSize : StubSize) {m : Member} (hm : m ∈ container.members)
    {c : Cursor} {slice : Slice}
    (h : (Slice.decode stubSize 0).answer m.slice.toArray c = .ok slice) (c' : Cursor) :
    ∃ c₁, Slice.decode stubSize m.offset.toNat container.bytes c' =
      .ok (slice.moved m.offset.toNat) c₁ := by
  obtain ⟨before, after, hbytes, hbefore⟩ := container.holdsAt_slice hm
  have hoffset := m.offset.toNat_lt
  rw [hbytes, ← hbefore]
  refine Slice.decode_within stubSize (.inr ?_) h c'
  simp only [UInt32.size, UInt64.size]
  omega

/-- **A universal file is the slices of its members.**  When every member is a slice on its
own, the file is decoded to these slices, in the order of the directory, each of them moved
to where its member starts. -/
theorem parse_bytes (stubSize : StubSize) (slices : Member → Slice)
    (h : ∀ m ∈ container.members,
      (Slice.decode stubSize 0).answer m.slice.toArray {} = .ok (slices m)) (c : Cursor) :
    (Image.parse stubSize).answer container.bytes c =
      .ok (container.members.map fun m => (slices m).moved m.offset.toNat).toArray := by
  obtain ⟨c₁, hdirectory⟩ := container.decodeDirectory_bytes
  have hslices : ∀ m ∈ container.members, ∀ c', ∃ c'',
      Slice.decode stubSize m.entry.offset.toNat container.bytes c' =
        .ok ((slices m).moved m.offset.toNat) c'' :=
    fun m hm c' => container.decode_bytes stubSize hm (h m hm) c'
  obtain ⟨c₂, hall⟩ := mapM_of_ok
    (f := fun entry : DirectoryEntry => Slice.decode stubSize entry.offset.toNat) hslices c₁
  have hparse : Image.parse stubSize container.bytes c =
      .ok (container.members.map fun m => (slices m).moved m.offset.toNat).toArray c₂ := by
    unfold Image.parse
    rw [bind_of_ok (container.decodeMagic_bytes c), if_pos container.isUniversal,
      bind_of_ok hdirectory]
    exact hall
  exact answer_of_ok hparse

/-- A slice of either width and byte order in one file, the second member in front of the
first: the diagnostics of the first are found where it stands. -/
theorem parse_bytes_two :
    let first : Member := ⟨7, 3, 100, 36, 2, [0xCE, 0xFA, 0xED, 0xFE, 7, 0, 0, 0, 3, 0, 0, 0, 2, 0,
      0, 0, 1, 0, 0, 0, 8, 0, 0, 0, 0, 0, 0, 0, 0x99, 0, 0, 0, 4, 0, 0, 0]⟩
    let second : Member := ⟨18, 0, 48, 0, 99, [0xEF, 0xDE, 0xAF, 0xFC, 0, 0, 0, 18, 0, 0, 0, 0, 0,
      0, 0, 2, 0, 0, 0, 0, 0, 0, 0, 0, 0, 0, 0, 0, 0, 0, 0, 0]⟩
    let small (base : ℕ) : Slice :=
      { frame := { width := .bits32, order := .little, base }
        cpuType := .x86, cpuSubtype := .i386, fileType := .execute, flags := 0
        sections := #[], segments := #[], symbols := {}, dynamicSymbols := {}, loadInfo := {}
        diagnostics := #[.undersizedCommand 0x99 (base + 28) 4,
          .unrecognizedCommand 0x99 (base + 28) 4] }
    let large (base : ℕ) : Slice :=
      { frame := { width := .bits64, order := .big, base }
        cpuType := .powerPc, cpuSubtype := .powerPcAll, fileType := .execute, flags := 0
        sections := #[], segments := #[], symbols := {}, dynamicSymbols := {}, loadInfo := {}
        diagnostics := #[] }
    ∃ container : Container, container.members = [first, second] ∧
      (∀ m ∈ container.members, (Slice.decode .legacy 0).answer m.slice.toArray {} =
        .ok (if m.offset = 100 then small 0 else large 0)) ∧
      (Image.parse .legacy).answer container.bytes {} = .ok #[small 100, large 48] := by
  intro first second small large
  have hapart : first.part.Apart second.part := by
    simp only [Part.Apart, Part.stop, Member.part, first, second, UInt32.reduceToNat,
      List.length_cons, List.length_nil]
    omega
  let container : Container :=
    { magic := 0xBEBAFECA, members := [first, second], filler := Array.replicate 140 0xAA
      isUniversal := by decide
      behind := by decide
      apart := by simpa using hapart
      directory_le := by simp
      stop_le := by simp [first, second, Member.part, Part.stop] }
  have hslices : ∀ m ∈ container.members, (Slice.decode .legacy 0).answer m.slice.toArray {} =
      .ok (if m.offset = 100 then small 0 else large 0) := by
    intro m hm
    simp only [container, List.mem_cons, List.not_mem_nil, or_false] at hm
    cases hm with
    | inl h => exact h ▸ (by decide +kernel)
    | inr h => exact h ▸ (by decide +kernel)
  refine ⟨container, rfl, hslices, ?_⟩
  have hmembers : container.members = [first, second] := rfl
  rw [container.parse_bytes .legacy _ hslices, hmembers]
  decide +kernel

end Container

end MachImage
