import Mathlib.Algebra.BigOperators.Ring.List
import Mathlib.Algebra.Order.BigOperators.Group.List
import Mathlib.Algebra.Order.Ring.Nat
import Mathlib.Data.Finset.Card
import Mathlib.Order.Interval.Finset.Nat
import MachImage.Proofs.Layout.Framing
import MachImage.Proofs.LoadCommand.Extent

/-! # How many sections are kept of segments

A section that is kept of a segment was declared by a section header, and a header takes 68 or
80 bytes of the file.  Headers are read from where the fields of their segment end, as many as
the segment counts, and the next command starts where the size of the segment says.  These are
two different things: a segment that counts more headers than its size has room for reads on
into the commands behind it, and two segments may read the same headers.

So the sections that are kept are paid for by bytes of the file where no header belongs to two
segments (`retained_le_of_pairwise`), which is so when every segment has room for its headers
(`pairwise_of_holdsHeaders`).  Without that only each segment for itself is bounded, and the
whole by the number of segments (`retained_le_mul`). -/

namespace MachImage

open Decoder

/-! ### Section headers of commands -/

/-- Whether sections of the kind are declared by the headers of segments. -/
def SectionKind.isMapped : SectionKind → Bool
  | text | symbolStubs | cString => true
  | _ => false

/-- The sections of a layout that are kept of segments. -/
def Layout.retained (layout : Layout) : List Section :=
  layout.sections.toList.filter (·.kind.isMapped)

namespace LoadCommand

/-- The section headers of a segment; other commands have none. -/
def sectionHeaders : LoadCommand → List SectionHeader
  | segment command => command.sections.toList
  | _ => []

/-- The positions of the file where the section headers of a command stand. -/
def headerRange (width : Width) (read : CommandHeader × LoadCommand) : Finset ℕ :=
  Finset.Ico (read.1.offset + segmentHeaderSize width)
    (read.1.offset + segmentHeaderSize width +
      read.2.sectionHeaders.length * sectionHeaderSize width)

/-- The size of a command leaves room for its section headers, if it has any. -/
def HoldsHeaders (width : Width) (read : CommandHeader × LoadCommand) : Prop :=
  read.2.sectionHeaders ≠ [] →
    segmentHeaderSize width + read.2.sectionHeaders.length * sectionHeaderSize width ≤
      read.1.size.toNat

instance decidableHoldsHeaders (width : Width) (read : CommandHeader × LoadCommand) :
    Decidable (HoldsHeaders width read) :=
  inferInstanceAs (Decidable (_ → _))

theorem card_headerRange (width : Width) (read : CommandHeader × LoadCommand) :
    (headerRange width read).card =
      read.2.sectionHeaders.length * sectionHeaderSize width := by
  rw [headerRange, Nat.card_Ico, Nat.add_sub_cancel_left]

/-- Every rule is about a kind that segments declare. -/
theorem isMapped_of_section? {frame : Frame} {header : SectionHeader} {s : Section}
    (h : header.section? frame = some s) : s.kind.isMapped := by
  have hrules : ∀ rule ∈ SectionRule.all, rule.kind.isMapped := by decide
  obtain ⟨rule, hrule, rfl⟩ := Option.map_eq_some_iff.mp h
  exact hrules rule (List.mem_of_find?_eq_some hrule)

/-- What is kept of a segment comes from its headers, and what is kept of other commands is not
of these kinds. -/
theorem filter_keptSections_isMapped (frame : Frame) (command : LoadCommand) :
    (command.keptSections frame).filter (·.kind.isMapped) =
      command.sectionHeaders.filterMap (SectionHeader.section? frame) := by
  cases command with
  | segment command =>
      refine List.filter_eq_self.mpr fun s hs => ?_
      obtain ⟨header, -, hsection⟩ := List.mem_filterMap.mp hs
      exact isMapped_of_section? hsection
  | linkEdit kind offset size => cases kind <;> rfl
  | _ => rfl

end LoadCommand

open LoadCommand

/-! ### Where the headers stand -/

section runs

variable {input : Input} {c c' : Cursor} {frame : Frame}

theorem SegmentCommand.size_sections_of_decode {s : SegmentCommand}
    (h : SegmentCommand.decode frame input c = .ok s c') :
    s.sections.size = s.segment.sectionCount.toNat := by
  unfold SegmentCommand.decode at h
  obtain ⟨name, c₁, -, h⟩ := bind_eq_ok.mp h
  obtain ⟨address, c₂, -, h⟩ := bind_eq_ok.mp h
  obtain ⟨vmSize, c₃, -, h⟩ := bind_eq_ok.mp h
  obtain ⟨fileOffset, c₄, -, h⟩ := bind_eq_ok.mp h
  obtain ⟨fileSize, c₅, -, h⟩ := bind_eq_ok.mp h
  obtain ⟨maxProtection, c₆, -, h⟩ := bind_eq_ok.mp h
  obtain ⟨initialProtection, c₇, -, h⟩ := bind_eq_ok.mp h
  obtain ⟨sectionCount, c₈, -, h⟩ := bind_eq_ok.mp h
  obtain ⟨flags, c₉, -, h⟩ := bind_eq_ok.mp h
  obtain ⟨sections, c₁₀, hsections, h⟩ := bind_eq_ok.mp h
  obtain ⟨rfl, -⟩ := pure_eq_ok h
  exact (runs_of_repeated hsections).1

theorem LoadCommand.segment_of_decode {read : CommandHeader × LoadCommand} {s : SegmentCommand}
    (h : decode frame input c = .ok read c') (hs : read.2 = .segment s) :
    ∃ c₁, SegmentCommand.decode frame input ⟨c.position + 8, c.order⟩ = .ok s c₁ := by
  rw [decode_eq, CommandHeader.decode] at h
  obtain ⟨header, c₁, hheader, h⟩ := bind_eq_ok.mp h
  rw [bind_of_ok (position_apply input c)] at hheader
  obtain ⟨tag, -, hheader⟩ := bind_u32_eq_ok hheader
  obtain ⟨size, -, hheader⟩ := bind_u32_eq_ok hheader
  obtain ⟨rfl, rfl⟩ := pure_eq_ok hheader
  obtain ⟨command, c₂, hcommand, h⟩ := bind_eq_ok.mp h
  rw [bind_of_ok (seek_apply input c₂ _)] at h
  obtain ⟨rfl, -⟩ := pure_eq_ok h
  exact ⟨c₂, (decodeContent_eq_ok hcommand).2 s hs⟩

theorem LoadCommand.headerRange_subset {read : CommandHeader × LoadCommand}
    (h : decode frame input c = .ok read c') :
    headerRange frame.width read ⊆ Finset.range input.size := by
  obtain ⟨header, command⟩ := read
  cases command with
  | segment s =>
      obtain ⟨c₁, hs⟩ := segment_of_decode h rfl
      have hsize := SegmentCommand.size_sections_of_decode hs
      have hle := SegmentCommand.sections_le_of_decode hs
      obtain ⟨hoffset, -⟩ := decode_eq_ok h
      rw [← hsize] at hle
      intro i hi
      simp only [headerRange, sectionHeaders, Finset.mem_Ico, Array.length_toList] at hi
      rw [Finset.mem_range]
      dsimp only at hoffset
      omega
  | _ => simp [headerRange, sectionHeaders]

theorem LoadCommand.pairwise_of_runs {commands : List (CommandHeader × LoadCommand)}
    (h : Runs (decode frame) input c commands c') :
    (∀ read ∈ commands, c.position ≤ read.1.offset) ∧
      commands.Pairwise fun a b => a.1.offset + a.1.size.toNat ≤ b.1.offset := by
  induction h with
  | nil c => exact ⟨by simp, .nil⟩
  | @cons c c₁ c₂ read rest hfirst _ ih =>
      obtain ⟨hoffset, -, -, rfl⟩ := decode_eq_ok hfirst
      obtain ⟨hbehind, hpairwise⟩ := ih
      have hnext : ∀ next ∈ rest, c.position + max read.1.size.toNat 8 ≤ next.1.offset := hbehind
      refine ⟨List.forall_mem_cons.mpr ⟨hoffset.ge, fun next hrest => ?_⟩,
        List.pairwise_cons.mpr ⟨fun next hrest => ?_, hpairwise⟩⟩
      · have hle := hnext next hrest
        omega
      · have hle := hnext next hrest
        omega

/-- Where every command has room for its section headers, no header belongs to two of them. -/
theorem LoadCommand.pairwise_of_holdsHeaders {commands : List (CommandHeader × LoadCommand)}
    (h : Runs (decode frame) input c commands c')
    (hroom : ∀ read ∈ commands, HoldsHeaders frame.width read) :
    (commands.map (headerRange frame.width)).Pairwise Disjoint := by
  rw [List.pairwise_map]
  refine (pairwise_of_runs h).2.imp_of_mem fun {a b} ha _ hbehind => ?_
  by_cases hnone : a.2.sectionHeaders = []
  · simp [headerRange, hnone]
  · have hfits := hroom a ha hnone
    rw [Finset.disjoint_left]
    intro i hi hi'
    simp only [headerRange, Finset.mem_Ico] at hi hi'
    omega

end runs

/-! ### Counting -/

/-- Ranges that have no position in common have as many positions together as each of them. -/
theorem sum_card_le_of_pairwise {ranges : List (Finset ℕ)} {whole : Finset ℕ}
    (hdisjoint : ranges.Pairwise Disjoint) (hsubset : ∀ r ∈ ranges, r ⊆ whole) :
    (ranges.map Finset.card).sum ≤ whole.card := by
  induction ranges generalizing whole with
  | nil => exact Nat.zero_le _
  | cons r rest ih =>
      obtain ⟨hr, hrest⟩ := List.forall_mem_cons.mp hsubset
      obtain ⟨hapart, hdisjoint⟩ := List.pairwise_cons.mp hdisjoint
      have hothers := ih hdisjoint fun r' hr' =>
        Finset.subset_sdiff.mpr ⟨hrest r' hr', (hapart r' hr').symm⟩
      have hcard := Finset.card_sdiff_add_card_eq_card hr
      rw [List.map_cons, List.sum_cons]
      omega

namespace Layout

variable {input : Input} {c c' : Cursor} {frame : Frame} (header : Header)
  {commands : List (CommandHeader × LoadCommand)}

theorem retained_foldl_record (frame : Frame) (commands : List (CommandHeader × LoadCommand)) :
    (commands.foldl record { frame, header }).retained =
      commands.flatMap fun read =>
        read.2.sectionHeaders.filterMap (SectionHeader.section? frame) := by
  rw [foldl_record]
  simp only [retained, declared, List.filter_flatMap, filter_keptSections_isMapped,
    List.flatMap_map]

theorem length_retained_le (frame : Frame) (commands : List (CommandHeader × LoadCommand)) :
    (commands.foldl record { frame, header }).retained.length ≤
      (commands.map fun read => read.2.sectionHeaders.length).sum := by
  rw [retained_foldl_record, List.length_flatMap]
  exact List.sum_le_sum fun read _ => List.length_filterMap_le _ _

theorem retained_le_of_pairwise (h : Runs (LoadCommand.decode frame) input c commands c')
    (hapart : (commands.map (headerRange frame.width)).Pairwise Disjoint) :
    (commands.foldl record { frame, header }).retained.length * sectionHeaderSize frame.width ≤
      input.size := by
  have hcount := Nat.mul_le_mul_right (sectionHeaderSize frame.width)
    (length_retained_le header frame commands)
  have hinside : ∀ r ∈ commands.map (headerRange frame.width), r ⊆ Finset.range input.size := by
    intro r hr
    obtain ⟨read, hread, rfl⟩ := List.mem_map.mp hr
    obtain ⟨c₁, c₂, hrun⟩ := h.exists_run_of_mem hread
    exact headerRange_subset hrun
  have htotal := sum_card_le_of_pairwise hapart hinside
  rw [List.map_map, Finset.card_range] at htotal
  refine hcount.trans (le_trans (le_of_eq ?_) htotal)
  rw [← List.sum_map_mul_right]
  simp only [Function.comp_def, card_headerRange]

/-- Only segments have headers, and none of them has more than fit into the file. -/
theorem retained_le_mul (h : Runs (LoadCommand.decode frame) input c commands c') :
    (commands.foldl record { frame, header }).retained.length * sectionHeaderSize frame.width ≤
      (commands.foldl record { frame, header }).segments.size * input.size := by
  have hcount := Nat.mul_le_mul_right (sectionHeaderSize frame.width)
    (length_retained_le header frame commands)
  refine hcount.trans ?_
  have heach : ∀ read ∈ commands,
      read.2.sectionHeaders.length * sectionHeaderSize frame.width ≤
        read.2.segment?.toList.length * input.size := by
    intro read hread
    obtain ⟨c₁, c₂, hrun⟩ := h.exists_run_of_mem hread
    have hcard := Finset.card_le_card (headerRange_subset hrun)
    rw [card_headerRange, Finset.card_range] at hcard
    cases hkind : read.2 with
    | segment s => simpa [hkind] using hcard
    | _ => simp [sectionHeaders]
  have hsegments : (commands.foldl record { frame, header }).segments.size =
      (commands.map fun read => read.2.segment?.toList.length).sum := by
    rw [foldl_record]
    simp only [declared, List.size_toArray, List.filterMap_eq_flatMap_toList,
      List.length_flatMap, List.map_map, Function.comp_def]
  rw [hsegments, ← List.sum_map_mul_right, ← List.sum_map_mul_right]
  exact List.sum_le_sum heach

/-- **Sections are paid for where no header belongs to two segments.**  A layout that is decoded
is put together of load commands that stand in a row behind the header.  Where the section
headers of any two of them have no byte of the file in common, there are 68 or 80 bytes of the
file for each section that is kept of a segment.  That is the case when each segment is large
enough for the headers that it counts.  In any case there are as many bytes once for every
segment. -/
theorem retained_le_of_decode {base : ℕ} {layout : Layout}
    (h : decode base input c = .ok layout c') :
    ∃ commands : List (CommandHeader × LoadCommand),
      layout = commands.foldl record { frame := layout.frame, header := layout.header } ∧
      commands.length = layout.header.commandCount.toNat ∧
      Runs (LoadCommand.decode layout.frame) input
        ⟨base + layout.frame.headerSize, layout.frame.order⟩ commands c' ∧
      ((commands.map (headerRange layout.frame.width)).Pairwise Disjoint →
        layout.retained.length * sectionHeaderSize layout.frame.width ≤ input.size) ∧
      ((∀ read ∈ commands, HoldsHeaders layout.frame.width read) →
        (commands.map (headerRange layout.frame.width)).Pairwise Disjoint) ∧
      layout.retained.length * sectionHeaderSize layout.frame.width ≤
        layout.segments.size * input.size := by
  obtain ⟨⟨frame, header⟩, c₁, hheader, h⟩ := bind_eq_ok.mp h
  obtain ⟨commands, c₂, hcommands, h⟩ := bind_eq_ok.mp h
  obtain ⟨rfl, rfl⟩ := pure_eq_ok h
  obtain ⟨magic, -, -, -, rfl⟩ := Header.decode_eq_ok hheader
  obtain ⟨hsize, hruns⟩ := runs_of_repeated hcommands
  have hapart := retained_le_of_pairwise header hruns
  have hmul := retained_le_mul header hruns
  rw [← Array.foldl_toList]
  have hlayout := foldl_record frame header commands.toList
  have hframe : (commands.toList.foldl record { frame, header }).frame = frame := by
    rw [hlayout]
    rfl
  have hheader' : (commands.toList.foldl record { frame, header }).header = header := by
    rw [hlayout]
    rfl
  rw [hframe, hheader']
  exact ⟨commands.toList, rfl, by rw [Array.length_toList, hsize], hruns, hapart,
    pairwise_of_holdsHeaders hruns, hmul⟩

/-- Two segments of 124 bytes with a header each, in a file of 276 bytes. -/
theorem retained_le_of_decode_roomy :
    let segment : List UInt8 := [1, 0, 0, 0, 124, 0, 0, 0] ++ List.replicate 40 0 ++
      [1, 0, 0, 0, 0, 0, 0, 0,
        0x5F, 0x5F, 0x74, 0x65, 0x78, 0x74, 0, 0, 0, 0, 0, 0, 0, 0, 0, 0,
        0x5F, 0x5F, 0x54, 0x45, 0x58, 0x54, 0, 0, 0, 0, 0, 0, 0, 0, 0, 0] ++ List.replicate 36 0
    let file : Input := ([0xCE, 0xFA, 0xED, 0xFE, 7, 0, 0, 0, 3, 0, 0, 0, 2, 0, 0, 0, 2, 0, 0, 0,
      248, 0, 0, 0, 0, 0, 0, 0] ++ segment ++ segment).toArray
    ∃ layout c' commands, decode 0 file {} = .ok layout c' ∧
      Runs (LoadCommand.decode layout.frame) file ⟨28, .little⟩ commands c' ∧
      (∀ read ∈ commands, HoldsHeaders .bits32 read) ∧
      layout.retained.length = 2 ∧ file.size = 276 ∧ layout.retained.length * 68 ≤ file.size := by
  intro segment file
  have hread : ((decode 0).answer file {}).toOption.map
      (fun layout => (layout.frame, layout.header.commandCount, layout.retained.length)) =
        some ({ width := .bits32, order := .little, base := 0 }, 2, 2) := by
    decide +kernel
  obtain ⟨layout, hanswer, hlayout⟩ := exists_of_toOption_map hread
  obtain ⟨hframe, hrest⟩ := Prod.mk.inj hlayout
  obtain ⟨hcount, hretained⟩ := Prod.mk.inj hrest
  obtain ⟨c', hrun⟩ := exists_of_answer_ok hanswer
  obtain ⟨commands, -, hlength, hruns, hbound, hapart, -⟩ := retained_le_of_decode hrun
  rw [hcount] at hlength
  rw [hframe] at hruns hbound hapart
  have hroom : ∀ read ∈ commands, HoldsHeaders .bits32 read := by
    intro read hmem
    obtain ⟨k, hk, rfl⟩ := List.mem_iff_getElem.mp hmem
    have hreads := readsCommand_of_runs hruns rfl k hk
    have hoffsets : ∀ k < 2, ∃ offset ∈ [28, 152],
        commandOffset? file .little 28 k = some offset := by decide +kernel
    have hholds : ∀ offset ∈ [28, 152],
        ((LoadCommand.decode { width := .bits32, order := .little, base := 0 }).answer file
          ⟨offset, .little⟩).toOption.map (fun read => decide (HoldsHeaders .bits32 read)) =
            some true := by decide +kernel
    obtain ⟨offset, hmem, hoffset⟩ := hoffsets k (by rw [hlength] at hk; exact hk)
    have hsame := Option.some.inj (hoffset.symm.trans hreads.offset_eq)
    obtain ⟨read, hread, hroom⟩ := exists_of_toOption_map (hholds offset hmem)
    rw [hsame, answer_of_ok hreads.run] at hread
    obtain rfl := Except.ok.inj hread
    exact of_decide_eq_true hroom
  exact ⟨layout, c', commands, hrun, hframe ▸ hruns, hroom, hretained, by decide +kernel,
    hbound (hapart hroom)⟩

/-- Two segments of 68 bytes that count four headers and three.  The first of them reads the
fields of the second as a header, and then the same three headers, so that six sections are kept
of a file that has room for five headers in all. -/
theorem not_retained_le_size :
    let segment (count : UInt8) : List UInt8 := [1, 0, 0, 0, 68, 0, 0, 0] ++ List.replicate 40 0 ++
      [count, 0, 0, 0, 0, 0, 0, 0]
    let sectionHeader : List UInt8 := [
      0x5F, 0x5F, 0x74, 0x65, 0x78, 0x74, 0, 0, 0, 0, 0, 0, 0, 0, 0, 0,
      0x5F, 0x5F, 0x54, 0x45, 0x58, 0x54, 0, 0, 0, 0, 0, 0, 0, 0, 0, 0] ++ List.replicate 36 0
    let file : Input := ([0xCE, 0xFA, 0xED, 0xFE, 7, 0, 0, 0, 3, 0, 0, 0, 2, 0, 0, 0, 2, 0, 0, 0,
      0, 0, 0, 0, 0, 0, 0, 0] ++ segment 4 ++ List.replicate 12 0 ++ segment 3 ++
        sectionHeader ++ sectionHeader ++ sectionHeader).toArray
    ∃ layout c', decode 0 file {} = .ok layout c' ∧ layout.retained.length = 6 ∧
      file.size = 356 ∧
      ¬ layout.retained.length * sectionHeaderSize layout.frame.width ≤ file.size := by
  intro segment sectionHeader file
  have hread : ((decode 0).answer file {}).toOption.map
      (fun layout => (layout.frame.width, layout.retained.length)) = some (.bits32, 6) := by
    decide +kernel
  obtain ⟨layout, hanswer, hlayout⟩ := exists_of_toOption_map hread
  obtain ⟨hwidth, hretained⟩ := Prod.mk.inj hlayout
  obtain ⟨c', hrun⟩ := exists_of_answer_ok hanswer
  have hsize : file.size = 356 := by decide +kernel
  refine ⟨layout, c', hrun, hretained, hsize, ?_⟩
  rw [hwidth, hretained, hsize]
  decide

end Layout

end MachImage
