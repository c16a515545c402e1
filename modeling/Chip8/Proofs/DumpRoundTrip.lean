import Chip8.DumpReader
import Mathlib.Data.List.Chain

set_option autoImplicit false

/-! Nothing is lost in a memory dump. Its rows cover the memory one after another, a run
of zeros is as long as it can be, and no line can be read in two ways, so the text
tells every byte. -/

namespace Chip8

/-! ### Joining runs -/

/-- Rows that cover the addresses from one up to another in ascending order, without
gap or overlap. -/
def RowsCover : List DumpRow → Nat → Nat → Prop
  | [], start, stop => start = stop
  | row :: later, start, stop =>
      row.first = start ∧ row.first ≤ row.last ∧ RowsCover later (row.last + 1) stop

theorem mergeZeroRuns_cons (row : DumpRow) (rest : List DumpRow) :
    (∃ next later, row.words = none ∧ next.words = none ∧ mergeZeroRuns rest = next :: later ∧
        mergeZeroRuns (row :: rest) = ⟨row.first, next.last, none⟩ :: later) ∨
      (mergeZeroRuns (row :: rest) = row :: mergeZeroRuns rest ∧
        ∀ next ∈ (mergeZeroRuns rest).head?, row.words = none → next.words ≠ none) := by
  rw [mergeZeroRuns]
  cases kind : row.words with
  | some words =>
      right
      exact ⟨rfl, fun _next _head zero => by cases zero⟩
  | none =>
      cases merged : mergeZeroRuns rest with
      | nil =>
          right
          exact ⟨rfl, fun _next head => by cases head⟩
      | cons next later =>
          obtain ⟨first, last, words⟩ := next
          cases words with
          | none =>
              left
              exact ⟨⟨first, last, none⟩, later, rfl, rfl, rfl, rfl⟩
          | some words =>
              right
              refine ⟨rfl, fun next head _zero => ?_⟩
              cases head
              simp

theorem rowsCover_mergeZeroRuns (rows : List DumpRow) (start stop : Nat)
    (covers : RowsCover rows start stop) : RowsCover (mergeZeroRuns rows) start stop := by
  induction rows generalizing start with
  | nil => exact covers
  | cons row rest ih =>
      obtain ⟨starts, ordered, behind⟩ := covers
      have merged := ih (row.last + 1) behind
      rcases mergeZeroRuns_cons row rest with
        ⟨next, later, _zero, _zeroNext, same, joined⟩ | ⟨kept, _apart⟩
      · rw [same] at merged
        obtain ⟨adjoins, orderedNext, beyond⟩ := merged
        rw [joined]
        refine ⟨starts, ?_, beyond⟩
        show row.first ≤ next.last
        omega
      · rw [kept]
        exact ⟨starts, ordered, merged⟩

theorem isChain_mergeZeroRuns (rows : List DumpRow) :
    (mergeZeroRuns rows).IsChain (fun above below => above.words = none → below.words ≠ none) := by
  induction rows with
  | nil => exact List.IsChain.nil
  | cons row rest ih =>
      rcases mergeZeroRuns_cons row rest with
        ⟨next, later, _zero, zeroNext, same, joined⟩ | ⟨kept, apart⟩
      · rw [same, List.isChain_cons] at ih
        rw [joined, List.isChain_cons]
        exact ⟨fun below head _zero => ih.1 below head zeroNext, ih.2⟩
      · rw [kept, List.isChain_cons]
        exact ⟨apart, ih⟩

theorem forall_mem_mergeZeroRuns (holds : DumpRow → Prop) (rows : List DumpRow)
    (start stop : Nat) (covers : RowsCover rows start stop) (each : ∀ row ∈ rows, holds row)
    (joins : ∀ row next, holds row → holds next → row.words = none → next.words = none →
      next.first = row.last + 1 → holds ⟨row.first, next.last, none⟩) :
    ∀ row ∈ mergeZeroRuns rows, holds row := by
  induction rows generalizing start with
  | nil =>
      intro row listed
      cases listed
  | cons row rest ih =>
      obtain ⟨_starts, _ordered, behind⟩ := covers
      obtain ⟨here, others⟩ := List.forall_mem_cons.mp each
      have merged := ih (row.last + 1) behind others
      rcases mergeZeroRuns_cons row rest with
        ⟨next, later, zero, zeroNext, same, joined⟩ | ⟨kept, _apart⟩
      · have adjoins := rowsCover_mergeZeroRuns rest (row.last + 1) stop behind
        rw [same] at merged adjoins
        obtain ⟨holdsNext, holdsLater⟩ := List.forall_mem_cons.mp merged
        rw [joined, List.forall_mem_cons]
        exact ⟨joins row next here holdsNext zero zeroNext adjoins.1, holdsLater⟩
      · rw [kept, List.forall_mem_cons]
        exact ⟨here, merged⟩

/-- A row that is emitted after others, given latest first. A row of zeros lengthens the
run that was emitted just before. -/
def emitRow (emitted : List DumpRow) (row : DumpRow) : List DumpRow :=
  match emitted, row.words with
  | ⟨first, _, none⟩ :: earlier, none => ⟨first, row.last, none⟩ :: earlier
  | _, _ => row :: emitted

/-- Joined rows behind those already emitted, the latest of which may be a run that the
first of them continues. -/
def continueRows (emitted merged : List DumpRow) : List DumpRow :=
  match emitted, merged with
  | ⟨first, _, none⟩ :: earlier, ⟨_, last, none⟩ :: later =>
      earlier.reverse ++ ⟨first, last, none⟩ :: later
  | _, _ => emitted.reverse ++ merged

theorem reverse_foldl_emitRow (rows emitted : List DumpRow) :
    (rows.foldl emitRow emitted).reverse = continueRows emitted (mergeZeroRuns rows) := by
  induction rows generalizing emitted with
  | nil =>
      cases emitted with
      | nil => rfl
      | cons latest earlier =>
          obtain ⟨first, last, words⟩ := latest
          cases words <;> simp [continueRows, mergeZeroRuns]
  | cons row rest ih =>
      rw [List.foldl_cons, ih, mergeZeroRuns]
      -- Only the latest row, this one and the next joined one matter, and of them only
      -- whether they are runs.
      rcases emitted with _ | ⟨⟨first, last, _ | words⟩, earlier⟩ <;>
        rcases row with ⟨rowFirst, rowLast, _ | rowWords⟩ <;>
        rcases mergeZeroRuns rest with _ | ⟨⟨nextFirst, nextLast, _ | nextWords⟩, later⟩ <;>
        simp [emitRow, continueRows]

theorem mergeZeroRuns_eq_foldl (rows : List DumpRow) :
    mergeZeroRuns rows = (rows.foldl emitRow []).reverse := by
  rw [reverse_foldl_emitRow, continueRows, List.reverse_nil, List.nil_append]
  · simp

theorem RowsCover.split (before after : List DumpRow) (start stop : Nat)
    (covers : RowsCover (before ++ after) start stop) :
    ∃ middle, RowsCover before start middle ∧ RowsCover after middle stop := by
  induction before generalizing start with
  | nil => exact ⟨start, rfl, covers⟩
  | cons row rest ih =>
      obtain ⟨starts, ordered, behind⟩ := covers
      obtain ⟨middle, upper, lower⟩ := ih (row.last + 1) behind
      exact ⟨middle, ⟨starts, ordered, upper⟩, lower⟩

/-! ### The rows of a memory -/

def Memory.ZeroRange (memory : Memory) (first last : Nat) : Prop :=
  ∀ address, first ≤ address → address ≤ last → memory.byteAt address = 0

/-- What a row of a dump says about the memory. -/
structure DumpRow.Shows (memory : Memory) (row : DumpRow) : Prop where
  aligned : 16 ∣ row.first ∧ 16 ∣ row.last + 1
  zeros : row.words = none → memory.ZeroRange row.first row.last
  listed : ∀ words, row.words = some words →
    row.last = row.first + 15 ∧ ¬ memory.ZeroRange row.first row.last ∧
      words = (List.range 8).map (fun word => Word.ofBytes
        (memory.byteAt (row.first + 2 * word)) (memory.byteAt (row.first + 2 * word + 1)))

namespace Memory

variable (memory : Memory)

theorem isZeroRow_iff (row : Nat) :
    memory.isZeroRow row = true ↔ memory.ZeroRange (16 * row) (16 * row + 15) := by
  unfold isZeroRow bytesAt ZeroRange
  rw [List.all_eq_true, List.forall_mem_map]
  constructor
  · intro zero address above below
    have inRow : address - 16 * row < 16 := by omega
    have place : 16 * row + (address - 16 * row) = address := by omega
    have found := zero (address - 16 * row) (List.mem_range.mpr inRow)
    rw [place] at found
    exact of_decide_eq_true found
  · intro zero offset inRow
    have below := List.mem_range.mp inRow
    exact decide_eq_true (zero (16 * row + offset) (by omega) (by omega))

theorem shows_singleRow (row : Nat) : (memory.singleRow row).Shows memory := by
  have aligned : 16 ∣ 16 * row ∧ 16 ∣ 16 * row + 15 + 1 := by omega
  have zeroIff := memory.isZeroRow_iff row
  unfold singleRow
  by_cases zero : memory.isZeroRow row = true
  · rw [if_pos zero]
    refine ⟨aligned, fun _none => zeroIff.mp zero, ?_⟩
    intro words impossible
    cases impossible
  · rw [if_neg zero]
    refine ⟨aligned, ?_, ?_⟩
    · intro impossible
      cases impossible
    · intro words same
      cases same
      exact ⟨rfl, mt zeroIff.mpr zero, rfl⟩

theorem shows_joined (row next : DumpRow) (shown : row.Shows memory) (shownNext : next.Shows memory)
    (zero : row.words = none) (zeroNext : next.words = none)
    (adjoins : next.first = row.last + 1) :
    DumpRow.Shows memory ⟨row.first, next.last, none⟩ := by
  refine ⟨⟨shown.aligned.1, shownNext.aligned.2⟩, ?_, ?_⟩
  · intro _none address above below
    by_cases upper : address ≤ row.last
    · exact shown.zeros zero address above upper
    · exact shownNext.zeros zeroNext address (by omega) below
  · intro words impossible
    cases impossible

theorem rowsCover_singleRows (start count : Nat) :
    RowsCover ((List.range' start count).map memory.singleRow) (16 * start)
      (16 * (start + count)) := by
  induction count generalizing start with
  | zero => rfl
  | succ count ih =>
      have behind := ih (start + 1)
      have place : start + 1 + count = start + (count + 1) := by omega
      have here : 16 * (start + 1) = 16 * start + 15 + 1 := by omega
      rw [place, here] at behind
      rw [List.range'_succ, List.map_cons]
      exact ⟨rfl, Nat.le_add_right (16 * start) 15, behind⟩

theorem rowsCover_rows : RowsCover ((List.range 256).map memory.singleRow) 0 4096 := by
  have covers := memory.rowsCover_singleRows 0 256
  rw [← List.range_eq_range'] at covers
  exact covers

theorem rowsCover_dumpRows : RowsCover memory.dumpRows 0 4096 :=
  rowsCover_mergeZeroRuns _ 0 4096 memory.rowsCover_rows

theorem shows_of_mem_dumpRows : ∀ row ∈ memory.dumpRows, row.Shows memory := by
  refine forall_mem_mergeZeroRuns _ _ 0 4096 memory.rowsCover_rows ?_ memory.shows_joined
  rw [List.forall_mem_map]
  intro row _inMemory
  exact memory.shows_singleRow row

theorem single_of_words (row : DumpRow) (shown : row.Shows memory)
    (other : row.words ≠ none) :
    row.last = row.first + 15 ∧ ¬ memory.ZeroRange row.first row.last := by
  obtain ⟨words, kind⟩ := Option.ne_none_iff_exists'.mp other
  obtain ⟨single, something, _words⟩ := shown.listed words kind
  exact ⟨single, something⟩

/-- A run cannot be longer: the sixteen bytes before it and those behind it hold
something, where there are any. -/
theorem zero_run_maximal (run : DumpRow) (listed : run ∈ memory.dumpRows)
    (zero : run.words = none) :
    (run.first = 0 ∨ 16 ≤ run.first ∧ ¬ memory.ZeroRange (run.first - 16) (run.first - 1)) ∧
      (run.last = 0xFFF ∨ ¬ memory.ZeroRange (run.last + 1) (run.last + 16)) := by
  obtain ⟨before, after, split⟩ := List.append_of_mem listed
  have covers := memory.rowsCover_dumpRows
  have shows := memory.shows_of_mem_dumpRows
  have apart : memory.dumpRows.IsChain _ := isChain_mergeZeroRuns _
  rw [split] at covers shows apart
  obtain ⟨middle, upper, starts, _ordered, lower⟩ := covers.split
  constructor
  · rcases List.eq_nil_or_concat before with empty | ⟨earlier, above, concat⟩
    · subst empty
      left
      rw [starts]
      exact upper.symm
    · right
      rw [List.concat_eq_append] at concat
      subst concat
      obtain ⟨_start, _earlier, _starts, _orderedAbove, adjoins⟩ := upper.split
      rw [List.append_assoc, List.singleton_append, List.isChain_append_cons_cons] at apart
      obtain ⟨single, something⟩ := memory.single_of_words above
        (shows above (by simp)) (fun both => apart.2.1 both zero)
      change above.last + 1 = middle at adjoins
      have firstBefore : run.first - 16 = above.first := by omega
      have lastBefore : run.first - 1 = above.last := by omega
      rw [firstBefore, lastBefore]
      exact ⟨by omega, something⟩
  · cases after with
    | nil =>
        left
        change run.last + 1 = 4096 at lower
        omega
    | cons below later =>
        right
        obtain ⟨adjoins, _orderedBelow, _beyond⟩ := lower
        rw [List.isChain_append_cons_cons] at apart
        obtain ⟨single, something⟩ := memory.single_of_words below
          (shows below (by simp)) (apart.2.1 zero)
        have lastBehind : run.last + 16 = below.last := by omega
        rw [← adjoins, lastBehind]
        exact something

end Memory

/-! ### Lines -/

theorem readHex?_hexText (width value : Nat) :
    readHex? (hexText width value).toList = some value := by
  rw [hexText, String.toList_ofList]
  exact congrArg some (hexValue_paddedHexDigits width value)

theorem readWords?_hexText (words : List Word) :
    readWords? (words.map (fun word => (hexText 4 word.toNat).toList)) = some words := by
  unfold readWords?
  induction words with
  | nil => rfl
  | cons word rest ih =>
      rw [List.map_cons, List.mapM_cons, readHex?_hexText, ih, Option.map_some,
        UInt16.ofNat_toNat]
      rfl

theorem readWords?_zeroRunPieces : readWords? zeroRunPieces = none := by
  decide +kernel

theorem not_mem_hexText_of_parting (value : Nat) (mark : Char)
    (parting : mark = ' ' ∨ mark = '\n') : mark ∉ (hexText 4 value).toList := by
  rcases parting with same | same
  all_goals
    subst same
    exact not_mem_hexText 4 value _ (by decide) (by decide)

theorem not_mem_intercalate (mark : Char) (part : List Char) (texts : List (List Char))
    (inPart : mark ∉ part) (inTexts : ∀ text ∈ texts, mark ∉ text) :
    mark ∉ part.intercalate texts := by
  induction texts with
  | nil => exact List.not_mem_nil
  | cons first rest ih =>
      obtain ⟨here, behind⟩ := List.forall_mem_cons.mp inTexts
      cases rest with
      | nil =>
          rw [List.intercalate_singleton]
          exact here
      | cons second later =>
          rw [List.intercalate_cons_cons, List.mem_append, List.mem_append]
          rintro ((listed | listed) | listed)
          · exact here listed
          · exact inPart listed
          · exact ih behind listed

theorem getLast?_intercalate_ne (mark : Char) (lines : List (List Char))
    (each : ∀ line ∈ lines, line ≠ [] ∧ mark ∉ line) :
    ([mark].intercalate lines).getLast? ≠ some mark := by
  induction lines with
  | nil => simp
  | cons first rest ih =>
      obtain ⟨here, behind⟩ := List.forall_mem_cons.mp each
      cases rest with
      | nil =>
          rw [List.intercalate_singleton]
          exact fun last => here.2 (List.mem_of_getLast? last)
      | cons second later =>
          have filled : [mark].intercalate (second :: later) ≠ [] := by
            have start := (behind second List.mem_cons_self).1
            cases later with
            | nil => simpa using start
            | cons third others => simp [List.intercalate_cons_cons]
          rw [List.intercalate_cons_cons, List.getLast?_append,
            List.getLast?_eq_some_getLast filled, Option.some_or,
            ← List.getLast?_eq_some_getLast filled]
          exact ih behind

theorem linesOf_joinLines (lines : List String) (given : lines ≠ [])
    (each : ∀ line ∈ lines, '\n' ∉ line.toList) : linesOf (joinLines lines) = lines := by
  have parted : (['\n'].intercalate (lines.map String.toList)).splitOn '\n' =
      lines.map String.toList := by
    apply List.splitOn_intercalate
    · exact List.forall_mem_map.mpr each
    · exact mt List.map_eq_nil_iff.mp given
  unfold linesOf joinLines
  rw [String.toList_intercalate]
  change ((['\n'].intercalate (lines.map String.toList)).splitOn '\n').map String.ofList = lines
  rw [parted, List.map_map]
  exact List.map_id'' (fun line => String.ofList_toList) lines

namespace DumpRow

def contentPieces (row : DumpRow) : List (List Char) :=
  match row.words with
  | none => zeroRunPieces
  | some words => words.map (fun word => (hexText 4 word.toNat).toList)

def pieces (row : DumpRow) : List (List Char) :=
  (hexText 4 row.first).toList :: ['-'] :: (hexText 4 row.last).toList :: [':'] ::
    row.contentPieces

theorem toList_contentText (row : DumpRow) :
    row.contentText.toList = [' '].intercalate row.contentPieces := by
  unfold contentText contentPieces
  cases row.words with
  | none => exact (List.intercalate_splitOn ' ').symm
  | some words =>
      rw [String.toList_intercalate, List.map_map]
      rfl

/-- A row with an empty list of words would end in a blank, which no row of a dump does. -/
theorem toList_text (depth : Nat) (row : DumpRow) (given : row.words ≠ some []) :
    (row.text depth).toList = List.replicate depth '\t' ++ [' '].intercalate row.pieces := by
  have content : row.contentPieces ≠ [] := by
    unfold contentPieces
    cases kind : row.words with
    | none => decide +kernel
    | some words =>
        intro empty
        rw [List.map_eq_nil_iff.mp empty] at kind
        exact given kind
  obtain ⟨piece, later, shape⟩ := List.exists_cons_of_ne_nil content
  simp [text, rangeText, indentation, pieces, toList_contentText, shape,
    List.intercalate_cons_cons]

theorem parting_not_mem_pieces (row : DumpRow) (mark : Char) (parting : mark = ' ' ∨ mark = '\n') :
    ∀ piece ∈ row.pieces, mark ∉ piece := by
  have number : ∀ value, mark ∉ (hexText 4 value).toList :=
    fun value => not_mem_hexText_of_parting value mark parting
  have signs : mark ∉ ['-'] ∧ mark ∉ [':'] ∧ ∀ piece ∈ zeroRunPieces, mark ∉ piece := by
    rcases parting with same | same
    all_goals
      subst same
      decide +kernel
  have content : ∀ piece ∈ row.contentPieces, mark ∉ piece := by
    unfold contentPieces
    cases row.words with
    | none => exact signs.2.2
    | some words => exact List.forall_mem_map.mpr (fun word _listed => number word.toNat)
  unfold pieces
  rw [List.forall_mem_cons, List.forall_mem_cons, List.forall_mem_cons, List.forall_mem_cons]
  exact ⟨number row.first, signs.1, number row.last, signs.2.1, content⟩

theorem readContent?_contentPieces (row : DumpRow) :
    readContent? row.contentPieces = some row.words := by
  unfold readContent? contentPieces
  cases row.words with
  | none => exact if_pos rfl
  | some words =>
      have read := readWords?_hexText words
      have other : words.map (fun word => (hexText 4 word.toNat).toList) ≠ zeroRunPieces := by
        intro same
        rw [same, readWords?_zeroRunPieces] at read
        cases read
      rw [if_neg other, read]
      rfl

theorem read?_text (depth : Nat) (row : DumpRow) (given : row.words ≠ some []) :
    read? (row.text depth) = some row := by
  have parted : ([' '].intercalate row.pieces).splitOn ' ' = row.pieces :=
    List.splitOn_intercalate ' ' (row.parting_not_mem_pieces ' ' (.inl rfl)) (List.cons_ne_nil _ _)
  have start : ([' '].intercalate row.pieces).dropWhile (· = '\t') =
      [' '].intercalate row.pieces := by
    simp [pieces, hexText, List.intercalate_cons_cons]
  have behind : ((row.text depth).toList).dropWhile (· = '\t') =
      [' '].intercalate row.pieces := by
    rw [toList_text depth row given, List.dropWhile_append_of_pos, start]
    intro character listed
    exact decide_eq_true (List.eq_of_mem_replicate listed)
  unfold read?
  rw [behind, parted]
  simp only [pieces, readHex?_hexText, readContent?_contentPieces]
  rfl

theorem mapM_read?_text (depth : Nat) (rows : List DumpRow)
    (given : ∀ row ∈ rows, row.words ≠ some []) :
    (rows.map (text depth)).mapM read? = some rows := by
  induction rows with
  | nil => rfl
  | cons row rest ih =>
      obtain ⟨here, behind⟩ := List.forall_mem_cons.mp given
      rw [List.map_cons, List.mapM_cons, row.read?_text depth here, ih behind]
      rfl

theorem lineEnd_not_mem_text (depth : Nat) (row : DumpRow) (given : row.words ≠ some []) :
    '\n' ∉ (row.text depth).toList := by
  rw [toList_text depth row given, List.mem_append]
  rintro (listed | listed)
  · have tab := List.eq_of_mem_replicate listed
    revert tab
    decide
  · exact not_mem_intercalate '\n' [' '] row.pieces (by decide)
      (row.parting_not_mem_pieces '\n' (.inr rfl)) listed

theorem contentText_eq_zeroRunText_iff (row : DumpRow) (given : row.words ≠ some []) :
    row.contentText = zeroRunText ↔ row.words = none := by
  constructor
  · intro same
    let run : DumpRow := ⟨row.first, row.last, none⟩
    have texts : row.text 0 = run.text 0 := by
      unfold text
      rw [same]
      rfl
    have read := row.read?_text 0 given
    rw [texts, run.read?_text 0 (by simp [run])] at read
    rw [← Option.some.inj read]
  · intro zero
    unfold contentText
    rw [zero]

theorem Shows.words_ne_nil {memory : Memory} {row : DumpRow} (shown : row.Shows memory) :
    row.words ≠ some [] := by
  intro empty
  have impossible := (shown.listed [] empty).2.2
  simp at impossible

theorem Shows.bytes_eq {memory : Memory} {row : DumpRow} (shown : row.Shows memory) :
    row.bytes = memory.bytesAt row.first (row.last + 1 - row.first) := by
  unfold bytes
  cases kind : row.words with
  | none =>
      symm
      apply List.eq_replicate_iff.mpr
      refine ⟨memory.length_bytesAt _ _, ?_⟩
      refine List.forall_mem_map.mpr (fun offset inRange => ?_)
      have below := List.mem_range.mp inRange
      exact shown.zeros kind (row.first + offset) (by omega) (by omega)
  | some words =>
      obtain ⟨single, _something, same⟩ := shown.listed words kind
      have width : row.last + 1 - row.first = 16 := by omega
      rw [width, same]
      simp only [List.flatMap_map, Word.highByte_ofBytes, Word.lowByte_ofBytes]
      rfl

end DumpRow

/-! ### Dumps -/

theorem RowsCover.le (rows : List DumpRow) (start stop : Nat) (covers : RowsCover rows start stop) :
    start ≤ stop := by
  induction rows generalizing start with
  | nil => exact Nat.le_of_eq covers
  | cons row later ih =>
      obtain ⟨starts, ordered, behind⟩ := covers
      have beyond := ih (row.last + 1) behind
      omega

namespace Memory

variable (memory : Memory)

theorem dumpRows_ne_nil : memory.dumpRows ≠ [] := by
  intro empty
  have covers := memory.rowsCover_dumpRows
  rw [empty] at covers
  cases covers

theorem linesOf_dump (depth : Nat) :
    linesOf (memory.dump depth) = memory.dumpRows.map (DumpRow.text depth) := by
  apply linesOf_joinLines
  · exact mt List.map_eq_nil_iff.mp memory.dumpRows_ne_nil
  · rw [List.forall_mem_map]
    intro row listed
    exact row.lineEnd_not_mem_text depth (memory.shows_of_mem_dumpRows row listed).words_ne_nil

theorem mapM_read?_dump (depth : Nat) :
    (linesOf (memory.dump depth)).mapM DumpRow.read? = some memory.dumpRows := by
  rw [linesOf_dump]
  exact DumpRow.mapM_read?_text depth memory.dumpRows
    (fun row listed => (memory.shows_of_mem_dumpRows row listed).words_ne_nil)

theorem getLast?_dump_ne (depth : Nat) : (memory.dump depth).toList.getLast? ≠ some '\n' := by
  have parted : (memory.dump depth).toList =
      ['\n'].intercalate ((memory.dumpRows.map (DumpRow.text depth)).map String.toList) :=
    String.toList_intercalate
  rw [parted]
  apply getLast?_intercalate_ne
  rw [List.forall_mem_map, List.forall_mem_map]
  intro row listed
  have given := (memory.shows_of_mem_dumpRows row listed).words_ne_nil
  refine ⟨?_, row.lineEnd_not_mem_text depth given⟩
  rw [row.toList_text depth given]
  simp [DumpRow.pieces, List.intercalate_cons_cons, hexText]

/-- Rows that cover the rest of a memory, put over a memory that agrees with it up to
there, make up that memory. -/
theorem withRows_of_rowsCover (rows : List DumpRow) (start : Nat) (earlier : Memory)
    (covers : RowsCover rows start 4096) (shows : ∀ row ∈ rows, row.Shows memory)
    (agrees : ∀ address, address < start → earlier.byteAt address = memory.byteAt address) :
    earlier.withRows rows = .ok memory := by
  induction rows generalizing start earlier with
  | nil =>
      change start = 4096 at covers
      subst covers
      rw [withRows, eq_of_byteAt_eq earlier memory agrees]
  | cons row later ih =>
      obtain ⟨starts, ordered, behind⟩ := covers
      obtain ⟨here, others⟩ := List.forall_mem_cons.mp shows
      have inside := behind.le
      have bytes := here.bytes_eq
      have width : row.bytes.length = row.last + 1 - row.first := by
        rw [bytes, length_bytesAt]
      have fits : row.first + row.bytes.length ≤ 4096 := by omega
      rw [withRows, load_eq, if_pos fits]
      refine ih (row.last + 1) (earlier.overwrite row.first row.bytes) behind others ?_
      intro address below
      rw [byteAt_overwrite]
      by_cases reached : row.first ≤ address
      · have place : row.first + (address - row.first) = address := by omega
        have within : address - row.first < row.last + 1 - row.first := by omega
        rw [if_pos ⟨reached, by omega⟩, bytes, bytesAt, List.getElem?_map,
          List.getElem?_range within, Option.map_some, Option.getD_some, place]
      · rw [if_neg (fun both => reached both.1)]
        exact agrees address (by omega)

theorem ofLines?_dump (depth : Nat) : ofLines? (memory.dump depth) = some memory := by
  have filled := memory.withRows_of_rowsCover memory.dumpRows 0 blank memory.rowsCover_dumpRows
    memory.shows_of_mem_dumpRows (fun address below => absurd below (Nat.not_lt_zero address))
  unfold ofLines?
  rw [mapM_read?_dump, Option.bind_eq_bind, Option.bind_some, filled]
  rfl

theorem dump_injective (other : Memory) (depth otherDepth : Nat)
    (same : other.dump otherDepth = memory.dump depth) : other = memory := by
  have found := other.ofLines?_dump otherDepth
  rw [same, memory.ofLines?_dump depth] at found
  exact (Option.some.inj found).symm

/-- The reader takes exactly the dumps, each for the memory it is a dump of. -/
theorem ofDump?_eq_some_iff (depth : Nat) (text : String) :
    ofDump? depth text = some memory ↔ text = memory.dump depth := by
  unfold ofDump?
  rw [Option.filter_eq_some_iff, decide_eq_true_eq]
  constructor
  · intro accepted
    exact accepted.2.symm
  · intro same
    subst same
    exact ⟨memory.ofLines?_dump depth, rfl⟩

/-- How the rows of a dump list a memory, told by the contents of the lines. -/
structure ListedBy (rows : List DumpRow) : Prop where
  covers : RowsCover rows 0 4096
  aligned : ∀ row ∈ rows, 16 ∣ row.first ∧ 16 ∣ row.last + 1
  filler_iff : ∀ row ∈ rows,
    (row.contentText = zeroRunText ↔ memory.ZeroRange row.first row.last)
  fillers_apart : rows.IsChain (fun above below =>
    above.contentText = zeroRunText → below.contentText ≠ zeroRunText)
  filler_maximal : ∀ row ∈ rows, row.contentText = zeroRunText →
    (row.first = 0 ∨ 16 ≤ row.first ∧ ¬ memory.ZeroRange (row.first - 16) (row.first - 1)) ∧
      (row.last = 0xFFF ∨ ¬ memory.ZeroRange (row.last + 1) (row.last + 16))
  otherwise : ∀ row ∈ rows, row.contentText ≠ zeroRunText →
    row.last = row.first + 15 ∧ ¬ memory.ZeroRange row.first row.last ∧
      row.contentText = String.intercalate " " ((List.range 8).map (fun word =>
        hexText 4 (256 * (memory.byteAt (row.first + 2 * word)).toNat +
          (memory.byteAt (row.first + 2 * word + 1)).toNat)))

theorem listedBy_dumpRows : memory.ListedBy memory.dumpRows := by
  have shows := memory.shows_of_mem_dumpRows
  have filler : ∀ row ∈ memory.dumpRows, (row.contentText = zeroRunText ↔ row.words = none) :=
    fun row listed => row.contentText_eq_zeroRunText_iff (shows row listed).words_ne_nil
  refine
    { covers := memory.rowsCover_dumpRows
      aligned := fun row listed => (shows row listed).aligned
      filler_iff := ?_
      fillers_apart := ?_
      filler_maximal := ?_
      otherwise := ?_ }
  · intro row listed
    rw [filler row listed]
    constructor
    · exact (shows row listed).zeros
    · intro zero
      by_contra other
      exact (memory.single_of_words row (shows row listed) other).2 zero
  · have apart : memory.dumpRows.IsChain _ := isChain_mergeZeroRuns _
    refine apart.imp_of_mem_imp (fun above below listedAbove listedBelow other => ?_)
    rw [filler above listedAbove, ne_eq, filler below listedBelow]
    exact other
  · intro row listed zero
    exact memory.zero_run_maximal row listed ((filler row listed).mp zero)
  · intro row listed other
    have given := mt (filler row listed).mpr other
    obtain ⟨words, kind⟩ := Option.ne_none_iff_exists'.mp given
    obtain ⟨single, something, same⟩ := (shows row listed).listed words kind
    refine ⟨single, something, ?_⟩
    unfold DumpRow.contentText
    rw [kind, same]
    simp only [List.map_map, Function.comp_def, Word.toNat_ofBytes]

/-- A memory dump is a lossless listing of runs. Its lines are the texts of its rows, and
each line tells its row; the rows cover the whole memory, the fillers among them are the
longest runs of zeros, and every other row lists its own eight words. Whatever the
indentation, the text tells the memory. -/
theorem dump_loses_nothing (depth : Nat) :
    linesOf (memory.dump depth) = memory.dumpRows.map (DumpRow.text depth) ∧
      (linesOf (memory.dump depth)).mapM DumpRow.read? = some memory.dumpRows ∧
      memory.dumpRows = (((List.range 256).map memory.singleRow).foldl emitRow []).reverse ∧
      memory.ListedBy memory.dumpRows ∧
      (memory.dump depth).toList.getLast? ≠ some '\n' ∧
      (∀ text, ofDump? depth text = some memory ↔ text = memory.dump depth) ∧
      ∀ (other : Memory) (otherDepth : Nat),
        other.dump otherDepth = memory.dump depth → other = memory := by
  refine ⟨memory.linesOf_dump depth, memory.mapM_read?_dump depth, mergeZeroRuns_eq_foldl _,
    memory.listedBy_dumpRows, memory.getLast?_dump_ne depth, memory.ofDump?_eq_some_iff depth, ?_⟩
  intro other otherDepth same
  exact memory.dump_injective other depth otherDepth same

end Memory

end Chip8
