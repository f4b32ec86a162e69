import MachImage.Proofs.Layout.Retained
import MachImage.Proofs.LoadCommand.Written
import MachImage.Proofs.Slice.Stubs

/-! # Where stubs and their size come from

The size of a stub is remembered when the load commands are described, and the address of the
stubs is looked up when the slice is put together: the one from the first header of stubs, the
other from the first section of stubs.  These two belong together.  Whatever segments and
sections a slice has, and whatever stands between them, the first section of stubs was added
for the first header of stubs (`LoadCommand.FirstStubs.sections_eq`), so that the stubs of a
slice are counted from the address of the one header whose size they have
(`Slice.stubs_of_one_header`). -/

namespace MachImage

open Decoder

/-! ### Headers of stubs -/

namespace SectionHeader

/-- The header is one of stubs.  There are two names for such sections. -/
def IsStubs (header : SectionHeader) : Prop :=
  header.segmentName = "__TEXT" ∧
    (header.sectionName = "__stubs" ∨ header.sectionName = "__symbol_stub")

instance (header : SectionHeader) : Decidable header.IsStubs :=
  inferInstanceAs (Decidable (_ ∧ _))

/-- The section that is added for a header of stubs. -/
def stubsSection (frame : Frame) (header : SectionHeader) : Section :=
  { kind := .symbolStubs, label := "Symbol Stubs", address := ⟨header.address⟩
    size := header.size.toNat, offset := frame.fileOffset header.offset.toNat }

theorem section?_of_isStubs {header : SectionHeader} (h : header.IsStubs) (frame : Frame) :
    header.section? frame = some (header.stubsSection frame) := by
  obtain ⟨hsegment, hname⟩ := h
  rw [section?_eq_some_iff, hsegment]
  refine ⟨?_, rfl⟩
  rcases hname with hname | hname
  · simp [hname, stubsSection]
  · simp [hname, stubsSection]

theorem isStubs_of_section? {header : SectionHeader} {frame : Frame} {s : Section}
    (h : header.section? frame = some s) (hkind : s.kind = .symbolStubs) : header.IsStubs := by
  obtain ⟨hrow, -⟩ := section?_eq_some_iff.mp h
  simp only [hkind, List.mem_cons, Prod.mk.injEq, reduceCtorEq, List.not_mem_nil, or_false] at hrow
  unfold IsStubs
  tauto

/-- A header of stubs gives their size, and no other header does. -/
theorem stubEntrySize?_eq (header : SectionHeader) :
    header.stubEntrySize? = if header.IsStubs then some header.reserved2 else none := by
  have hsection (frame : Frame) : header.section? frame =
      (SectionRule.for? header).map fun rule =>
        { kind := rule.kind, label := rule.label, address := ⟨header.address⟩
          size := header.size.toNat, offset := frame.fileOffset header.offset.toNat } := rfl
  let frame : Frame := { width := .bits32, order := .little, base := 0 }
  unfold stubEntrySize?
  split
  case isTrue hstubs =>
    obtain ⟨rule, hrule, hs⟩ := Option.map_eq_some_iff.mp (section?_of_isStubs hstubs frame)
    have hkind : rule.kind = .symbolStubs := congrArg Section.kind hs
    rw [hrule, Option.bind_some, if_pos hkind]
  case isFalse hother =>
    cases hrule : SectionRule.for? header with
    | none => rfl
    | some rule =>
        have hs := hsection frame
        rw [hrule, Option.map_some] at hs
        have hkind : rule.kind ≠ .symbolStubs := fun h => hother (isStubs_of_section? hs h)
        rw [Option.bind_some, if_neg hkind]

end SectionHeader

namespace LoadCommand

variable {frame : Frame} {command : LoadCommand} {commands : List LoadCommand}

theorem kind_ne_of_mem_filterMap {headers : List SectionHeader}
    (h : ∀ header ∈ headers, ¬ header.IsStubs) {s : Section}
    (hs : s ∈ headers.filterMap (SectionHeader.section? frame)) : s.kind ≠ .symbolStubs := by
  obtain ⟨header, hheader, hsection⟩ := List.mem_filterMap.mp hs
  exact fun hkind => h header hheader (SectionHeader.isStubs_of_section? hsection hkind)

theorem kind_ne_of_mem_keptSections (h : ∀ header ∈ command.sectionHeaders, ¬ header.IsStubs)
    {s : Section} (hs : s ∈ command.keptSections frame) : s.kind ≠ .symbolStubs := by
  cases command with
  | segment segment => exact kind_ne_of_mem_filterMap h hs
  | symtab table =>
      obtain rfl := List.mem_singleton.mp hs
      exact nofun
  | linkEdit kind offset size =>
      cases kind with
      | functionStarts | codeSignature =>
          obtain rfl := List.mem_singleton.mp hs
          exact nofun
      | _ => cases hs
  | _ => cases hs

theorem stubEntrySizes_eq (command : LoadCommand) :
    command.stubEntrySizes = command.sectionHeaders.filterMap SectionHeader.stubEntrySize? := by
  cases command <;> rfl

theorem filterMap_stubEntrySize?_eq_nil {headers : List SectionHeader}
    (h : ∀ header ∈ headers, ¬ header.IsStubs) :
    headers.filterMap SectionHeader.stubEntrySize? = [] := by
  rw [List.filterMap_eq_nil_iff]
  intro header hheader
  rw [header.stubEntrySize?_eq, if_neg (h header hheader)]

theorem flatMap_stubEntrySizes_eq_nil
    (h : ∀ command ∈ commands, ∀ header ∈ command.sectionHeaders, ¬ header.IsStubs) :
    commands.flatMap stubEntrySizes = [] := by
  rw [List.flatMap_eq_nil_iff]
  intro command hcommand
  rw [stubEntrySizes_eq, filterMap_stubEntrySize?_eq_nil (h command hcommand)]

/-! ### The first header of stubs -/

/-- The first header of stubs among some load commands: the commands and the headers of its
segment that stand in front of it, none of them one of stubs, and those that stand behind. -/
structure FirstStubs (commands : List LoadCommand) where
  before : List LoadCommand
  segment : SegmentCommand
  after : List LoadCommand
  earlier : List SectionHeader
  header : SectionHeader
  later : List SectionHeader
  commands_eq : commands = before ++ .segment segment :: after
  headers_eq : segment.sections.toList = earlier ++ header :: later
  isStubs : header.IsStubs
  none_before : ∀ command ∈ before, ∀ h ∈ command.sectionHeaders, ¬ h.IsStubs
  none_earlier : ∀ h ∈ earlier, ¬ h.IsStubs

theorem exists_firstStubs
    (h : ∃ command ∈ commands, ∃ header ∈ command.sectionHeaders, header.IsStubs) :
    Nonempty (FirstStubs commands) := by
  let hasStubs (command : LoadCommand) : Bool := command.sectionHeaders.any (·.IsStubs)
  have hsome : (commands.find? hasStubs).isSome := by
    obtain ⟨command, hcommand, header, hheader, hstubs⟩ := h
    rw [List.find?_isSome]
    exact ⟨command, hcommand, List.any_eq_true.mpr ⟨header, hheader, decide_eq_true hstubs⟩⟩
  obtain ⟨command, hcommand⟩ := Option.isSome_iff_exists.mp hsome
  obtain ⟨hhas, before, after, rfl, hbefore⟩ := List.find?_eq_some_iff_append.mp hcommand
  have hheaders : (command.sectionHeaders.find? (·.IsStubs)).isSome := by
    rwa [List.find?_isSome, ← List.any_eq_true]
  obtain ⟨header, hheader⟩ := Option.isSome_iff_exists.mp hheaders
  obtain ⟨hstubs, earlier, later, hsplit, hearlier⟩ := List.find?_eq_some_iff_append.mp hheader
  cases command with
  | segment segment =>
      refine ⟨{ before, segment, after, earlier, header, later
                commands_eq := rfl
                headers_eq := hsplit
                isStubs := of_decide_eq_true hstubs
                none_before := ?_, none_earlier := ?_ }⟩
      case refine_1 =>
        intro command hcommand h hh hstubs'
        have hnone := hbefore command hcommand
        rw [Bool.not_eq_true', ← Bool.not_eq_true, List.any_eq_true] at hnone
        exact hnone ⟨h, hh, decide_eq_true hstubs'⟩
      case refine_2 =>
        intro h hh hstubs'
        have hnone := hearlier h hh
        rw [Bool.not_eq_true', decide_eq_false_iff_not] at hnone
        exact hnone hstubs'
  | _ => cases hheader

namespace FirstStubs

variable (first : FirstStubs commands) (frame : Frame)

/-- The sections that are added in front of the first one of stubs. -/
def front : List Section :=
  first.before.flatMap (keptSections frame) ++
    first.earlier.filterMap (SectionHeader.section? frame)

/-- The sections that are added behind it. -/
def rest : List Section :=
  first.later.filterMap (SectionHeader.section? frame) ++
    first.after.flatMap (keptSections frame)

theorem kind_ne_of_mem_front {s : Section} (hs : s ∈ first.front frame) :
    s.kind ≠ .symbolStubs := by
  rcases List.mem_append.mp hs with hbefore | hearlier
  · obtain ⟨command, hcommand, hkept⟩ := List.mem_flatMap.mp hbefore
    exact kind_ne_of_mem_keptSections (first.none_before command hcommand) hkept
  · exact kind_ne_of_mem_filterMap first.none_earlier hearlier

theorem sections_eq :
    commands.flatMap (keptSections frame) =
      first.front frame ++ first.header.stubsSection frame :: first.rest frame := by
  have hsegment : (LoadCommand.segment first.segment).keptSections frame =
      first.earlier.filterMap (SectionHeader.section? frame) ++
        first.header.stubsSection frame ::
          first.later.filterMap (SectionHeader.section? frame) := by
    simp only [keptSections]
    rw [first.headers_eq, List.filterMap_append,
      List.filterMap_cons_some (SectionHeader.section?_of_isStubs first.isStubs frame)]
  have hall := congrArg (List.flatMap (keptSections frame)) first.commands_eq
  rw [List.flatMap_append, List.flatMap_cons, hsegment] at hall
  rw [hall, front, rest]
  simp only [List.append_assoc, List.cons_append]

theorem head?_stubEntrySizes :
    (commands.flatMap stubEntrySizes).head? = some first.header.reserved2 := by
  have hheader : first.header.stubEntrySize? = some first.header.reserved2 := by
    rw [SectionHeader.stubEntrySize?_eq, if_pos first.isStubs]
  have hsegment : (LoadCommand.segment first.segment).stubEntrySizes =
      first.header.reserved2 :: first.later.filterMap SectionHeader.stubEntrySize? := by
    simp only [stubEntrySizes]
    rw [first.headers_eq, List.filterMap_append,
      filterMap_stubEntrySize?_eq_nil first.none_earlier, List.nil_append,
      List.filterMap_cons_some hheader]
  have hall := congrArg (List.flatMap stubEntrySizes) first.commands_eq
  rw [List.flatMap_append, flatMap_stubEntrySizes_eq_nil first.none_before, List.nil_append,
    List.flatMap_cons, hsegment] at hall
  rw [hall]
  rfl

end FirstStubs

end LoadCommand

/-! ### Layouts -/

namespace Layout

theorem exists_runs_of_decode {base : ℕ} {input : Input} {c c' : Cursor} {layout : Layout}
    (h : decode base input c = .ok layout c') :
    ∃ commands : List (CommandHeader × LoadCommand),
      layout = commands.foldl record { frame := layout.frame, header := layout.header } ∧
      commands.length = layout.header.commandCount.toNat ∧
      Runs (LoadCommand.decode layout.frame) input
        ⟨base + layout.frame.headerSize, layout.frame.order⟩ commands c' := by
  obtain ⟨⟨frame, header⟩, c₁, hheader, h⟩ := bind_eq_ok.mp h
  obtain ⟨commands, c₂, hcommands, h⟩ := bind_eq_ok.mp h
  obtain ⟨rfl, rfl⟩ := pure_eq_ok h
  obtain ⟨magic, -, -, -, rfl⟩ := Header.decode_eq_ok hheader
  obtain ⟨hsize, hruns⟩ := runs_of_repeated hcommands
  have hlayout := foldl_record frame header commands.toList
  rw [← Array.foldl_toList, hlayout]
  exact ⟨commands.toList, hlayout.symm, by rw [Array.length_toList, hsize]; rfl, hruns⟩

variable {layout : Layout} {commands : List (CommandHeader × LoadCommand)}

theorem sections_of_firstStubs
    (h : layout = commands.foldl record { frame := layout.frame, header := layout.header })
    (first : LoadCommand.FirstStubs (commands.map Prod.snd)) :
    layout.sections.toList = first.front layout.frame ++
      first.header.stubsSection layout.frame :: first.rest layout.frame := by
  rw [← first.sections_eq, h, foldl_record]
  rfl

theorem stubEntrySize?_of_firstStubs
    (h : layout = commands.foldl record { frame := layout.frame, header := layout.header })
    (first : LoadCommand.FirstStubs (commands.map Prod.snd)) :
    layout.stubEntrySize? = some first.header.reserved2 := by
  rw [← first.head?_stubEntrySizes, h, foldl_record]
  rfl

/-- There is a size just where there is a section of stubs, and both come from a header. -/
theorem exists_firstStubs_iff
    (h : layout = commands.foldl record { frame := layout.frame, header := layout.header }) :
    (layout.stubEntrySize?.isSome ↔ Nonempty (LoadCommand.FirstStubs (commands.map Prod.snd))) ∧
      ((∃ s ∈ layout.sections, s.kind = .symbolStubs) ↔
        Nonempty (LoadCommand.FirstStubs (commands.map Prod.snd))) := by
  have hsizes : layout.stubEntrySize? =
      ((commands.map Prod.snd).flatMap LoadCommand.stubEntrySizes).head? := by
    rw [h, foldl_record]
    rfl
  have hsections : layout.sections.toList =
      (commands.map Prod.snd).flatMap (LoadCommand.keptSections layout.frame) := by
    rw [h, foldl_record]
    rfl
  refine ⟨⟨fun hsome => ?_, ?_⟩, ⟨?_, ?_⟩⟩
  case refine_1 =>
    refine LoadCommand.exists_firstStubs ?_
    by_contra hnone
    push Not at hnone
    rw [hsizes, LoadCommand.flatMap_stubEntrySizes_eq_nil hnone] at hsome
    cases hsome
  case refine_2 =>
    rintro ⟨first⟩
    rw [stubEntrySize?_of_firstStubs h first]
    rfl
  case refine_3 =>
    rintro ⟨s, hs, hkind⟩
    rw [← Array.mem_toList_iff, hsections] at hs
    obtain ⟨command, hcommand, hkept⟩ := List.mem_flatMap.mp hs
    refine LoadCommand.exists_firstStubs ⟨command, hcommand, ?_⟩
    by_contra hnone
    push Not at hnone
    exact LoadCommand.kind_ne_of_mem_keptSections hnone hkept hkind
  case refine_4 =>
    rintro ⟨first⟩
    refine ⟨first.header.stubsSection layout.frame, ?_, rfl⟩
    rw [← Array.mem_toList_iff, sections_of_firstStubs h first]
    exact List.mem_append_right _ List.mem_cons_self

end Layout

/-! ### Slices -/

namespace Slice

/-- The stubs of a slice are those of a header: the section that is found has the address that
the header gives, and the dynamic symbols that point somewhere have the addresses that follow
from it with the size that the header gives. -/
structure HasStubsOf (slice : Slice) (stubSize : StubSize) (input : Input)
    (header : SectionHeader) : Prop where
  stubs_eq :
    slice.section? .symbolStubs = some ((header.stubsSection slice.frame).loaded input)
  value_eq : ∀ {position : ℕ} {entry target : Symbol},
    slice.dynamicSymbols.get? position = some entry →
    slice.symbols.get? entry.index.toNat = some target →
    entry.value.toNat = (header.address.toNat +
      position * (stubSize.resolve slice.cpuType (some header.reserved2)).toNat) % 2 ^ 64

namespace Raw

variable {raw : Raw} {input : Input}

theorem OfFile.find?_stubs (h : raw.OfFile input) {front rest : List Section} {s : Section}
    (hsections : raw.layout.sections.toList = front ++ s :: rest)
    (hfront : ∀ s' ∈ front, s'.kind ≠ .symbolStubs) (hs : s.kind = .symbolStubs) :
    raw.sections.find? (·.kind = .symbolStubs) = some (s.loaded input) := by
  have hkind : (fun s : Section => decide (s.kind = .symbolStubs)) ∘ Section.loaded input =
      fun s => decide (s.kind = .symbolStubs) := rfl
  have hnone : front.find? (fun s => decide (s.kind = .symbolStubs)) = none := by
    rw [List.find?_eq_none]
    intro s' hs'
    simpa using hfront s' hs'
  have hfirst : (described raw.layout).toList.find? (fun s => decide (s.kind = .symbolStubs)) =
      some s := by
    rw [described, Array.toList_append, Array.toList_append, hsections, List.append_assoc,
      List.append_assoc, List.find?_append, hnone, Option.none_or, List.cons_append,
      List.find?_cons_of_pos (by simpa using hs)]
  rw [h.sections_eq, ← Array.find?_toList, Array.toList_map, List.find?_map, hkind, hfirst]
  rfl

theorem OfFile.hasStubsOf (h : raw.OfFile input) (stubSize : StubSize) {header : SectionHeader}
    {front rest : List Section}
    (hsections : raw.layout.sections.toList = front ++ header.stubsSection raw.frame :: rest)
    (hfront : ∀ s ∈ front, s.kind ≠ .symbolStubs)
    (hsize : raw.layout.stubEntrySize? = some header.reserved2) :
    (raw.resolved stubSize).HasStubsOf stubSize input header := by
  have hstubs := h.find?_stubs hsections hfront rfl
  have hlinked := linkedSymbols_of_stubs stubSize hstubs
  rw [hsize] at hlinked
  rw [resolved_eq]
  constructor
  case stubs_eq => exact hstubs
  case value_eq =>
    intro position entry target hentry htarget
    dsimp only at hentry htarget
    rw [hlinked, SymbolTable.get?_linked] at hentry
    obtain ⟨s, -, rfl⟩ := Option.map_eq_some_iff.mp hentry
    rw [Symbol.index_linked] at htarget
    exact (Symbol.isLinkedTo_linked htarget).value_eq

end Raw

variable {base : ℕ} {input : Input} {c c' : Cursor} {layout : Layout}

/-- **Stubs and their size come from one header.**  A layout that is decoded gives a size of
stubs just where it holds a section of stubs.  The size is then, even when it is zero, what the
header gives that the first section of stubs was added for: in front of it in the layout stand
the sections that were added before, none of them one of stubs.  And however the size is chosen,
a slice with this layout has the stubs of that header. -/
theorem stubs_of_one_header (h : Layout.decode base input c = .ok layout c') :
    ∃ commands : List (CommandHeader × LoadCommand),
      layout = commands.foldl Layout.record { frame := layout.frame, header := layout.header } ∧
      commands.length = layout.header.commandCount.toNat ∧
      Runs (LoadCommand.decode layout.frame) input
        ⟨base + layout.frame.headerSize, layout.frame.order⟩ commands c' ∧
      (layout.stubEntrySize?.isSome ↔ ∃ s ∈ layout.sections, s.kind = .symbolStubs) ∧
      ∀ size ∈ layout.stubEntrySize?,
        ∃ first : LoadCommand.FirstStubs (commands.map Prod.snd),
          size = first.header.reserved2 ∧
          layout.sections.toList = first.front layout.frame ++
            first.header.stubsSection layout.frame :: first.rest layout.frame ∧
          (∀ s ∈ first.front layout.frame, s.kind ≠ .symbolStubs) ∧
          ∀ (stubSize : StubSize) (slice : Slice),
            (decode stubSize base).answer input c = .ok slice →
              slice.HasStubsOf stubSize input first.header := by
  obtain ⟨commands, hlayout, hlength, hruns⟩ := Layout.exists_runs_of_decode h
  obtain ⟨hsome, hsection⟩ := Layout.exists_firstStubs_iff hlayout
  refine ⟨commands, hlayout, hlength, hruns, hsome.trans hsection.symm, ?_⟩
  intro size hsize
  obtain ⟨first⟩ := hsome.mp (Option.isSome_iff_exists.mpr ⟨size, hsize⟩)
  have hsections := Layout.sections_of_firstStubs hlayout first
  have hfirst := Layout.stubEntrySize?_of_firstStubs hlayout first
  refine ⟨first, Option.some.inj (hsize.symm.trans hfirst), hsections,
    fun s hs => first.kind_ne_of_mem_front layout.frame hs, ?_⟩
  intro stubSize slice hslice
  obtain ⟨raw, hraw, rfl⟩ := exists_raw hslice
  obtain ⟨hfile, -⟩ := Raw.ofFile_of_decode hraw
  obtain rfl : layout = raw.layout :=
    Except.ok.inj ((answer_of_ok h).symm.trans (Raw.answer_layout hraw))
  rw [Raw.layout_frame] at hsections
  exact hfile.hasStubsOf stubSize hsections
    (fun s hs => first.kind_ne_of_mem_front raw.frame hs) hfirst

/-- A section that is called `__stubs` in a segment of data, then stubs of no size at `0x1000`,
and in another segment stubs of twelve bytes at `0x2000`; a symbol; and two dynamic symbols that
point at it. -/
def severalStubs : Input :=
  let words := Written.words .little
  let text : List UInt8 := [0x5F, 0x5F, 0x54, 0x45, 0x58, 0x54] ++ List.replicate 10 0
  let data : List UInt8 := [0x5F, 0x5F, 0x44, 0x41, 0x54, 0x41] ++ List.replicate 10 0
  let stubs : List UInt8 := [0x5F, 0x5F, 0x73, 0x74, 0x75, 0x62, 0x73] ++ List.replicate 9 0
  let symbolStub : List UInt8 :=
    [0x5F, 0x5F, 0x73, 0x79, 0x6D, 0x62, 0x6F, 0x6C, 0x5F, 0x73, 0x74, 0x75, 0x62, 0, 0, 0]
  (words [0xFEEDFACE, 7, 3, 2, 4, 420, 0] ++
    words [1, 192] ++ text ++ words [0, 0, 0, 0, 7, 5, 2, 0] ++
      stubs ++ data ++ words [0x500, 0, 0, 0, 0, 0, 0, 0, 5] ++
      symbolStub ++ text ++ words [0x1000, 0, 0, 0, 0, 0, 0, 0, 0] ++
    words [1, 124] ++ text ++ words [0, 0, 0, 0, 7, 5, 1, 0] ++
      stubs ++ text ++ words [0x2000, 0, 0, 0, 0, 0, 0, 0, 12] ++
    words [2, 24, 448, 1, 460, 2] ++
    words ([11, 80] ++ List.replicate 12 0 ++ [462, 2] ++ List.replicate 4 0) ++
    words [0] ++ [15, 1, 0, 0] ++ words [0x3000] ++ [0x61, 0] ++ words [0, 0]).toArray

/-- The size of zero counts, not the one of the other stubs; where it is asked for, it stands for
the usual one. -/
theorem stubs_of_one_header_severalStubs :
    ∃ layout c' slice, Layout.decode 0 severalStubs {} = .ok layout c' ∧
      layout.stubEntrySize? = some 0 ∧
      (decode .fromSection 0).answer severalStubs {} = .ok slice ∧
      slice.dynamicSymbols.symbols.map Symbol.value = #[0x1000, 0x1006] ∧
      ∃ commands : List (CommandHeader × LoadCommand),
        layout = commands.foldl Layout.record { frame := layout.frame, header := layout.header } ∧
        commands.length = layout.header.commandCount.toNat ∧
        Runs (LoadCommand.decode layout.frame) severalStubs
          ⟨0 + layout.frame.headerSize, layout.frame.order⟩ commands c' ∧
        (layout.stubEntrySize?.isSome ↔ ∃ s ∈ layout.sections, s.kind = .symbolStubs) ∧
        ∀ size ∈ layout.stubEntrySize?,
          ∃ first : LoadCommand.FirstStubs (commands.map Prod.snd),
            size = first.header.reserved2 ∧
            layout.sections.toList = first.front layout.frame ++
              first.header.stubsSection layout.frame :: first.rest layout.frame ∧
            (∀ s ∈ first.front layout.frame, s.kind ≠ .symbolStubs) ∧
            ∀ (stubSize : StubSize) (slice : Slice),
              (decode stubSize 0).answer severalStubs {} = .ok slice →
                slice.HasStubsOf stubSize severalStubs first.header := by
  have hlayout : ((Layout.decode 0).answer severalStubs {}).toOption.map Layout.stubEntrySize? =
      some (some 0) := by
    decide +kernel
  have hslice : ((decode .fromSection 0).answer severalStubs {}).toOption.map
      (fun slice => slice.dynamicSymbols.symbols.map Symbol.value) = some #[0x1000, 0x1006] := by
    decide +kernel
  obtain ⟨layout, hlayout, hsize⟩ := exists_of_toOption_map hlayout
  obtain ⟨slice, hslice, hvalues⟩ := exists_of_toOption_map hslice
  obtain ⟨c', hrun⟩ := exists_of_answer_ok hlayout
  exact ⟨layout, c', slice, hrun, hsize, hslice, hvalues, stubs_of_one_header hrun⟩

end Slice

end MachImage
