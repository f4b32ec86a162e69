import MachImage.Proofs.Image.Failure
import MachImage.Proofs.Layout.Framing
import MachImage.Proofs.LoadCommand.Extent
import MachImage.Proofs.Slice.SymbolTables

/-! # Counts stand for bytes of the file

A file says how many slices, load commands, section headers, symbols and indirect symbols it
has, each time as a number of 32 bits.  Every round of the loop that such a number drives takes
bytes of its own: 20 for an entry of the directory, at least 8 for a load command, 68 or 80 for
a section header, 12 or 16 for a symbol and 4 for an indirect one.  So wherever reading
succeeds as many bytes are in the file (`Layout.CountsBacked`, `Slice.CountsBacked`), and a
number that promises more fails the call with the bytes that are missing
(`Image.counts_backed`). -/

namespace MachImage

open Decoder

/-- The counts in a layout stand for bytes of the file. -/
structure Layout.CountsBacked (layout : Layout) (input : Input) : Prop where
  /-- Every command has its tag and size at least, behind the header. -/
  commands_le : layout.frame.base + layout.frame.headerSize +
    8 * layout.header.commandCount.toNat ≤ input.size
  sections_le : ∀ s ∈ layout.segments,
    s.sectionCount.toNat * sectionHeaderSize layout.frame.width ≤ input.size

/-- The counts in a slice stand for bytes of the file, and are those of its commands. -/
structure Slice.CountsBacked (slice : Slice) (raw : Raw) (input : Input) : Prop where
  length_commands : raw.commands.length = raw.header.commandCount.toNat
  commands_le : slice.frame.base + slice.frame.headerSize + 8 * raw.commands.length ≤ input.size
  sections_le : ∀ s ∈ slice.segments,
    s.sectionCount.toNat * sectionHeaderSize slice.frame.width ≤ input.size
  /-- Of several symbol tables the last one counts. -/
  size_symbols :
    slice.symbols.size = (raw.symtabs.getLast?.map fun t => t.symbolCount.toNat).getD 0
  symbols_le : slice.symbols.size * symbolSize slice.frame.width ≤ input.size
  size_dynamicSymbols :
    slice.dynamicSymbols.size = (raw.indirects.getLast?.map fun t => t.count.toNat).getD 0
  dynamicSymbols_le : slice.dynamicSymbols.size * 4 ≤ input.size

variable {input : Input} {c c' : Cursor} {base : ℕ}

/-! ### Load commands -/

theorem Header.le_size_of_decode {frame : Frame} {header : Header}
    (h : decode base input c = .ok (frame, header) c') : base + frame.headerSize ≤ input.size := by
  unfold decode at h
  rw [bind_of_ok (seek_apply input c base), bind_of_ok (setOrder_apply input _ .little)] at h
  obtain ⟨magic, -, h⟩ := takes_u32.bind_eq_ok h
  cases hframe : Frame.ofMagic? magic base with
  | none =>
      rw [hframe] at h
      cases h
  | some frame' =>
      rw [hframe] at h
      dsimp only at h
      rw [bind_of_ok (setOrder_apply input _ frame'.order)] at h
      obtain ⟨cpuType, -, h⟩ := takes_u32.bind_eq_ok h
      obtain ⟨subtype, -, h⟩ := takes_u32.bind_eq_ok h
      obtain ⟨fileType, -, h⟩ := takes_u32.bind_eq_ok h
      obtain ⟨count, -, h⟩ := takes_u32.bind_eq_ok h
      obtain ⟨commandsSize, -, h⟩ := takes_u32.bind_eq_ok h
      obtain ⟨flags, hflags, h⟩ := takes_u32.bind_eq_ok h
      have hsize := (takes_u32.le_size hflags).2
      dsimp only at hsize
      split at h
      · next hwidth =>
        obtain ⟨reserved, hreserved, h⟩ := takes_u32.bind_eq_ok h
        cases h
        have hlast := (takes_u32.le_size hreserved).2
        dsimp only at hlast
        simp only [Frame.headerSize, hwidth]
        omega
      · next hwidth =>
        cases h
        unfold Frame.headerSize
        cases hw : frame.width with
        | bits32 =>
            dsimp only
            omega
        | bits64 => exact absurd hw hwidth

/-- Commands in a row take eight bytes each at least, whatever their sizes say. -/
theorem LoadCommand.le_size_of_runs {frame : Frame} {commands : List (CommandHeader × LoadCommand)}
    (h : Runs (decode frame) input c commands c') :
    commands = [] ∨ c.position + 8 * commands.length ≤ input.size := by
  induction h with
  | nil c => exact .inl rfl
  | @cons c c₁ c₂ read rest hfirst _ ih =>
      obtain ⟨-, -, hsize, rfl⟩ := decode_eq_ok hfirst
      have hle := Input.le_size_of_u32? hsize
      right
      rw [List.length_cons]
      cases ih with
      | inl hnil =>
          subst hnil
          rw [List.length_nil]
          omega
      | inr hrest =>
          dsimp only at hrest
          omega

namespace Layout

theorem countsBacked_of_runs {frame : Frame} {header : Header}
    {commands : List (CommandHeader × LoadCommand)} {c₁ c₂ : Cursor}
    (hheader : Header.decode base input c = .ok (frame, header) c₁)
    (hlength : commands.length = header.commandCount.toNat)
    (hruns : Runs (LoadCommand.decode frame) input c₁ commands c₂) :
    (commands.foldl record { frame, header }).CountsBacked input := by
  obtain ⟨magic, -, hframe, -, rfl⟩ := Header.decode_eq_ok hheader
  have hbase := Frame.base_of_ofMagic? hframe
  have hstart := Header.le_size_of_decode hheader
  have hle := LoadCommand.le_size_of_runs hruns
  rw [foldl_record]
  constructor
  case commands_le =>
    show frame.base + frame.headerSize + 8 * header.commandCount.toNat ≤ input.size
    rw [hbase, ← hlength]
    cases hle with
    | inl hnil =>
        rw [hnil, List.length_nil]
        omega
    | inr hall => exact hall
  case sections_le =>
    intro s hs
    rw [← Array.mem_toList_iff] at hs
    obtain ⟨command, hcommand, hs⟩ := List.mem_filterMap.mp hs
    obtain ⟨read, hread, rfl⟩ := List.mem_map.mp hcommand
    obtain ⟨c₃, c₄, hrun⟩ := hruns.exists_run_of_mem hread
    cases hkind : read.2 with
    | segment segment =>
        rw [hkind] at hs
        cases hs
        obtain ⟨c₅, c₆, hsegment⟩ := (LoadCommand.content_of_decode hrun).2 segment hkind
        have hfit := SegmentCommand.sections_le_of_decode hsegment
        have hfields : 8 ≤ segmentHeaderSize frame.width := by
          cases frame.width <;> decide
        dsimp only [declared]
        omega
    | _ =>
        rw [hkind] at hs
        cases hs

theorem countsBacked_of_decode {layout : Layout} (h : decode base input c = .ok layout c') :
    input.StartsSlice base layout.frame ∧ layout.CountsBacked input := by
  obtain ⟨⟨frame, header⟩, c₁, hheader, h⟩ := bind_eq_ok.mp h
  obtain ⟨commands, c₂, hcommands, h⟩ := bind_eq_ok.mp h
  obtain ⟨rfl, -⟩ := pure_eq_ok h
  obtain ⟨hsize, hruns⟩ := runs_of_repeated hcommands
  have hbacked := countsBacked_of_runs hheader (by rw [Array.length_toList, hsize]) hruns
  rw [← Array.foldl_toList]
  refine ⟨?_, hbacked⟩
  rw [foldl_record]
  exact Header.startsSlice_of_decode hheader

end Layout

/-! ### Symbol tables -/

/-- The entries of a table that stands in a file are all there. -/
theorem SymbolTable.StandsAt.le_size {table : SymbolTable} {offset count size : ℕ}
    {write : Symbol → List UInt8} (h : table.StandsAt input offset count size write)
    (hwrite : ∀ s, (write s).length = size) : table.size * size ≤ input.size := by
  have hentries : (table.symbols.toList.flatMap write).length = table.size * size := by
    simp [List.length_flatMap, hwrite, SymbolTable.size]
  rw [h.bytes_eq, h.size_eq] at hentries
  rw [h.size_eq]
  have hle := Input.le_size_of_length_range hentries
  omega

/-- A table that stands where the last of some declarations says, or is empty without one, has
the entries that this declaration counts, and the file has their bytes. -/
theorem SymbolTable.size_of_getLast? {α : Type} {declared : List α} {count offset : α → ℕ}
    {table : SymbolTable} {size : ℕ} {write : Symbol → List UInt8}
    (hstands : ∀ last ∈ declared.getLast?,
      table.StandsAt input (offset last) (count last) size write)
    (hempty : declared = [] → table = {}) (hwrite : ∀ s, (write s).length = size) :
    table.size = (declared.getLast?.map count).getD 0 ∧ table.size * size ≤ input.size := by
  cases hlast : declared.getLast? with
  | none =>
      have hnone : table.size = 0 := by
        rw [hempty (List.getLast?_eq_none_iff.mp hlast)]
        rfl
      rw [hnone, Nat.zero_mul]
      exact ⟨rfl, Nat.zero_le _⟩
  | some last => exact ⟨(hstands last hlast).size_eq, (hstands last hlast).le_size hwrite⟩

namespace Slice

theorem Raw.resolved_segments (raw : Raw) (stubSize : StubSize) :
    (raw.resolved stubSize).segments = raw.layout.segments := by
  rw [resolved_eq]

/-- A slice has the counts of its layout and of the tables that stand in the file. -/
theorem countsBacked_of_decode {stubSize : StubSize} {slice : Slice}
    (h : (decode stubSize base).answer input c = .ok slice) :
    input.StartsSlice base slice.frame ∧
      ∃ raw, (Raw.decode base).answer input c = .ok raw ∧ raw.resolved stubSize = slice ∧
        slice.CountsBacked raw input := by
  obtain ⟨raw, hraw, rfl⟩ := exists_raw h
  obtain ⟨c₁, c₂, hheader, hlength, hruns⟩ := Raw.runs_of_decode hraw
  have hlayout : raw.layout.CountsBacked input :=
    Layout.countsBacked_of_runs hheader hlength hruns
  obtain ⟨hfile, -⟩ := Raw.ofFile_of_decode hraw
  have hcommands := hlayout.commands_le
  have hsections := hlayout.sections_le
  rw [Raw.layout_frame] at hcommands hsections
  rw [Raw.layout_header, ← hlength] at hcommands
  have hsymbols := SymbolTable.size_of_getLast?
    (fun last hlast => hfile.standsAt_symbols stubSize hlast)
    (hfile.symbols_resolved_empty stubSize) (Symbol.length_bytes raw.frame)
  have hdynamic := SymbolTable.size_of_getLast?
    (fun last hlast => hfile.standsAt_dynamicSymbols stubSize hlast)
    (hfile.dynamicSymbols_resolved_empty stubSize) (Symbol.length_indexBytes raw.frame)
  refine ⟨?_, raw, hraw, rfl, ?_⟩
  · rw [Raw.resolved_frame]
    exact Header.startsSlice_of_decode hheader
  constructor
  case length_commands => exact hlength
  case commands_le => rwa [Raw.resolved_frame]
  case sections_le => rwa [Raw.resolved_frame, Raw.resolved_segments]
  case size_symbols => exact hsymbols.1
  case symbols_le =>
    rw [Raw.resolved_frame]
    exact hsymbols.2
  case size_dynamicSymbols => exact hdynamic.1
  case dynamicSymbols_le => exact hdynamic.2

end Slice

/-! ### Directories -/

theorem takes_directoryEntry {order : ByteOrder} : Takes order DirectoryEntry.decode 20 :=
  (takes_u32.bind fun _ => takes_u32.bind fun _ => takes_u32.bind fun _ => takes_u32.bind fun _ =>
    takes_u32.bind_pure).of_eq rfl

theorem Image.size_of_directory {entries : Array DirectoryEntry}
    (h : directory input = .ok entries) :
    (input.u32? .big 4).map UInt32.toNat = some entries.size ∧
      8 + 20 * entries.size ≤ input.size := by
  obtain ⟨c', hrun⟩ := exists_of_answer_ok h
  unfold decodeDirectory at hrun
  rw [bind_of_ok (setOrder_apply input _ .big)] at hrun
  obtain ⟨count, hcount, hrun⟩ := bind_u32_eq_ok hrun
  have hsize := (runs_of_repeated hrun).1
  have hstart := Input.le_size_of_u32? hcount
  have hentries := ((takes_repeated takes_directoryEntry count.toNat).le_size hrun).2
  dsimp only at hcount hstart hentries
  refine ⟨by rw [hcount, hsize]; rfl, ?_⟩
  rw [hsize]
  omega

/-! ### Refusals -/

theorem isUniversalMagic_of_ofMagic? {magic : UInt32} {frame : Frame}
    (h : Frame.ofMagic? magic base = some frame) : isUniversalMagic magic = false := by
  have hne : magic ≠ 0xCAFEBABE ∧ magic ≠ 0xBEBAFECA := by
    constructor <;>
      rintro rfl <;>
      cases h
  simp [isUniversalMagic, hne]

/-- Behind the magic number of a slice only bytes can be missing. -/
theorem Slice.isShort_of_decode {stubSize : StubSize} {frame : Frame} {e : DecodeError}
    (hstart : input.StartsSlice base frame)
    (h : (decode stubSize base).answer input c = .error e) : e.IsShort input := by
  obtain ⟨magic, hmagic, hframe⟩ := hstart
  refine (holdsOf_of_decode h).mono ?_
  rintro unknown ⟨hunknown, hnone⟩
  obtain rfl := Option.some.inj (hmagic.symm.trans hunknown)
  rw [hframe] at hnone
  cases hnone

namespace Image

variable {stubSize : StubSize}

/-- The parser comes to the slice at `base`: it is at the start of the file, or an entry of the
directory points at it and the slices of all entries in front of that one are decoded. -/
def ComesTo (stubSize : StubSize) (input : Input) (base : ℕ) : Prop :=
  base = 0 ∨ ∃ magic entries earlier entry later,
    input.u32? .little 0 = some magic ∧ isUniversalMagic magic ∧
    directory input = .ok entries ∧ entries.toList = earlier ++ entry :: later ∧
    (∀ x ∈ earlier, ∃ slice, sliceOf stubSize input x = .ok slice) ∧ entry.offset.toNat = base

/-- A file that starts with a slice is that slice. -/
theorem answer_parse_slice {frame : Frame} (hstart : input.StartsSlice 0 frame) :
    (parse stubSize).answer input c = ((Slice.decode stubSize 0).answer input {}).map (#[·]) := by
  obtain ⟨magic, hmagic, hframe⟩ := hstart
  have hknown : isMagic magic = true := by
    simp [isMagic, hframe]
  rw [answer_parse, hmagic]
  dsimp only
  rw [isUniversalMagic_of_ofMagic? hframe, hknown]
  rfl

/-- The first slice that is refused refuses the file. -/
theorem ComesTo.answer_parse {frame : Frame} {e : DecodeError}
    (h : ComesTo stubSize input base) (hstart : input.StartsSlice base frame)
    (he : (Slice.decode stubSize base).answer input c = .error e) :
    (parse stubSize).answer input c = .error e := by
  have hfresh : (Slice.decode stubSize base).answer input {} = .error e := he
  obtain rfl | ⟨magic, entries, earlier, entry, later, hmagic, huniversal, hentries, hsplit,
    hearlier, rfl⟩ := h
  · rw [answer_parse_slice hstart, hfresh]
    rfl
  · rw [answer_parse_universal c hmagic huniversal, hentries]
    exact arrayMapM_eq_error_iff.mpr ⟨earlier, entry, later, hsplit, hearlier, hfresh⟩

/-- Every slice of a file is decoded by itself. -/
theorem exists_decode_of_mem_parse {slices : Array Slice}
    (h : (parse stubSize).answer input c = .ok slices) {slice : Slice} (hslice : slice ∈ slices) :
    ∃ base, (Slice.decode stubSize base).answer input {} = .ok slice := by
  rw [answer_parse] at h
  split at h
  next => cases h
  next magic _ =>
    split at h
    next =>
      cases hdirectory : directory input with
      | error e =>
          rw [hdirectory] at h
          cases h
      | ok entries =>
          rw [hdirectory] at h
          obtain ⟨i, hi, rfl⟩ := List.mem_iff_getElem.mp (Array.mem_toList_iff.mpr hslice)
          obtain ⟨hlength, hall⟩ := List.forall₂_iff_get.mp (arrayMapM_eq_ok_iff.mp h)
          exact ⟨_, hall i (hlength ▸ hi) hi⟩
    next =>
      split at h
      next =>
        cases hdecode : (Slice.decode stubSize 0).answer input {} with
        | error e =>
            rw [hdecode] at h
            cases h
        | ok decoded =>
            rw [hdecode] at h
            cases h
            rw [Array.mem_singleton] at hslice
            exact ⟨0, hslice ▸ hdecode⟩
      next => cases h

/-- **A count that the file cannot back does not survive.**  Where the directory of a universal
file is read, it has as many entries as the file says, 20 bytes each behind the first eight.
Where the load commands of a slice are read, each has at least eight bytes behind the header,
and every segment has 68 or 80 bytes for each of its sections.  Where the slice is read, its
symbols are as many as the last symbol table counts, with 12 or 16 bytes each, and its dynamic
symbols as many as the last table of indirect symbols counts, with four.  Else bytes are
missing, in a range that the error names: behind the magic number of a slice there is no other
error, and the error of a directory, of load commands, or of the first slice that is refused is
that of the whole call.  So in a file that is decoded all counts of all slices are backed. -/
theorem counts_backed (stubSize : StubSize) (input : Input) (c : Cursor) :
    (∀ entries, directory input = .ok entries →
      (input.u32? .big 4).map UInt32.toNat = some entries.size ∧
        8 + 20 * entries.size ≤ input.size) ∧
    (∀ e, directory input = .error e →
      e.IsShort input ∧ ∀ magic, input.u32? .little 0 = some magic → isUniversalMagic magic →
        (parse stubSize).answer input c = .error e) ∧
    (∀ base frame, input.StartsSlice base frame →
      (∀ layout, (Layout.decode base).answer input c = .ok layout →
        layout.frame = frame ∧ layout.CountsBacked input) ∧
      (∀ e, (Layout.decode base).answer input c = .error e →
        e.IsShort input ∧ (Slice.decode stubSize base).answer input c = .error e) ∧
      (∀ slice, (Slice.decode stubSize base).answer input c = .ok slice →
        slice.frame = frame ∧ ∃ raw, (Slice.Raw.decode base).answer input c = .ok raw ∧
          raw.resolved stubSize = slice ∧ slice.CountsBacked raw input) ∧
      ∀ e, (Slice.decode stubSize base).answer input c = .error e →
        e.IsShort input ∧
          (ComesTo stubSize input base → (parse stubSize).answer input c = .error e)) ∧
    ∀ slices, (parse stubSize).answer input c = .ok slices → ∀ slice ∈ slices, ∃ base raw,
      (Slice.Raw.decode base).answer input {} = .ok raw ∧ raw.resolved stubSize = slice ∧
        slice.CountsBacked raw input := by
  refine ⟨fun entries => size_of_directory, ?_, ?_, ?_⟩
  · intro e he
    refine ⟨isShort_of_directory he, fun magic hmagic huniversal => ?_⟩
    rw [answer_parse_universal c hmagic huniversal, he]
    rfl
  · intro base frame hstart
    refine ⟨?_, ?_, ?_, ?_⟩
    · intro layout hlayout
      obtain ⟨c', hrun⟩ := exists_of_answer_ok hlayout
      obtain ⟨hread, hbacked⟩ := Layout.countsBacked_of_decode hrun
      exact ⟨hread.eq hstart, hbacked⟩
    · intro e he
      have hslice : (Slice.decode stubSize base).answer input c = .error e :=
        answer_bind_of_error he _
      exact ⟨Slice.isShort_of_decode hstart hslice, hslice⟩
    · intro slice hslice
      obtain ⟨hread, hbacked⟩ := Slice.countsBacked_of_decode hslice
      exact ⟨hread.eq hstart, hbacked⟩
    · intro e he
      exact ⟨Slice.isShort_of_decode hstart he, fun hcomes => hcomes.answer_parse hstart he⟩
  · intro slices h slice hslice
    obtain ⟨base, hdecode⟩ := exists_decode_of_mem_parse h hslice
    exact ⟨base, (Slice.countsBacked_of_decode hdecode).2⟩

/-- A table of one symbol is read to the last byte of the file.  A second symbol that is
promised and not there fails the slice, and with it the file, at the end of the file. -/
theorem counts_backed_symtab :
    let file (count : UInt8) : Input := #[0xCE, 0xFA, 0xED, 0xFE, 7, 0, 0, 0, 3, 0, 0, 0,
      2, 0, 0, 0, 1, 0, 0, 0, 24, 0, 0, 0, 0, 0, 0, 0,
      2, 0, 0, 0, 24, 0, 0, 0, 52, 0, 0, 0, count, 0, 0, 0, 52, 0, 0, 0, 0, 0, 0, 0,
      0, 0, 0, 0, 15, 1, 0, 0, 0, 16, 0, 0]
    (∃ slice raw, (Slice.decode .legacy 0).answer (file 1) {} = .ok slice ∧
      slice.symbols.size = 1 ∧ (Slice.Raw.decode 0).answer (file 1) {} = .ok raw ∧
      slice.CountsBacked raw (file 1)) ∧
    (file 2).size = 64 ∧ (parse .legacy).answer (file 2) {} = .error (.truncated 64 4) := by
  intro file
  let frame : Frame := { width := .bits32, order := .little, base := 0 }
  have hone : (file 1).StartsSlice 0 frame := ⟨0xFEEDFACE, by decide, rfl⟩
  have htwo : (file 2).StartsSlice 0 frame := ⟨0xFEEDFACE, by decide, rfl⟩
  constructor
  · have hcount : ((Slice.decode .legacy 0).answer (file 1) {}).toOption.map
        (fun slice => slice.symbols.size) = some 1 := by
      decide +kernel
    obtain ⟨slice, hslice, hsize⟩ := exists_of_toOption_map hcount
    obtain ⟨-, -, hslices, -⟩ := counts_backed .legacy (file 1) {}
    obtain ⟨-, raw, hraw, -, hbacked⟩ := (hslices 0 frame hone).2.2.1 slice hslice
    exact ⟨slice, raw, hslice, hsize, hraw, hbacked⟩
  · have hfails : (Slice.decode .legacy 0).answer (file 2) {} = .error (.truncated 64 4) := by
      decide +kernel
    obtain ⟨-, -, hslices, -⟩ := counts_backed .legacy (file 2) {}
    exact ⟨rfl, ((hslices 0 frame htwo).2.2.2 _ hfails).2 (.inl rfl)⟩

end Image

end MachImage
