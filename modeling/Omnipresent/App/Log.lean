import Omnipresent.Daemon.Ipc
import Omnipresent.LossyText

/-! The end of the daemon's log, as the window shows it: the read begins so many bytes from
the end, and the cut is made in lines. -/
namespace Omnipresent
open LossyText

structure DaemonLog where
  /-- Where the file is. -/
  path : String
  /-- The most recent lines, oldest first. -/
  lines : List String
deriving DecidableEq, Repr

def logTailBytes : Nat := 64 * 1024

def logTailLines : Nat := 200

/-- `str::trim`. -/
def trim (text : List Char) : List Char :=
  ((text.dropWhile isWhitespace).reverse.dropWhile isWhitespace).reverse

/-- The last `count` non-empty lines, oldest first. -/
def tailLines (text : List Char) (count : Nat) : List String :=
  let lines := (lines text).filter fun line => !(trim line).isEmpty
  let start := lines.length - count
  (lines.drop start).map String.ofList

/-- A log that could be opened, and what fails of reading it. -/
structure OpenedLog where
  bytes : List UInt8
  metadata : Option String
  seek : Option String
  readToEnd : Option String

def failing (failure : Option String) : Except String Unit :=
  match failure with
  | some reason => .error reason
  | none => .ok ()

def daemonLog (path : Except String String) (file : Option OpenedLog) : Except String DaemonLog := do
  let display ← path
  match file with
  -- No log is not an error: the daemon may never have run on this machine.
  | none => return ⟨display, []⟩
  | some ⟨file, metadata, seek, readToEnd⟩ =>
    failing metadata
    let size := file.length
    if size > logTailBytes then failing seek
    failing readToEnd
    let bytes := if size > logTailBytes then file.drop (size - logTailBytes) else file
    return ⟨display, tailLines (fromUtf8Lossy bytes) logTailLines⟩

def skippedPart (bytes : List UInt8) : List UInt8 := bytes.take (bytes.length - logTailBytes)

def readPart (bytes : List UInt8) : List UInt8 := bytes.drop (bytes.length - logTailBytes)

/-- The first line of the part read, which may be the end of one. -/
def fragment (bytes : List UInt8) : List UInt8 := ((splitInclusive newline (readPart bytes)).head?).getD []

def followingLines (bytes : List UInt8) : List (List UInt8) := (splitInclusive newline (readPart bytes)).tail

/-- The part read begins with a line, or with the file. -/
def atLineStart (bytes : List UInt8) : Bool := (skippedPart bytes).getLast?.all (· = newline)

/-- The lines that lie whole in the part read. -/
def wholeLines (bytes : List UInt8) : List (List UInt8) :=
  if atLineStart bytes then splitInclusive newline (readPart bytes) else followingLines bytes

/-- What is to be shown of these lines, each read by itself: those that are not blank. -/
def shownLines (pieces : List (List UInt8)) : List String :=
  ((pieces.map lineText).filter fun line => !(trim line).isEmpty).map String.ofList

/-- The last of the file's lines that are not blank, no more than so many, and all that lie
whole in the part read unless there are so many. -/
structure LastLines (bytes : List UInt8) (shown : List String) : Prop where
  entire : shown <:+ shownLines (splitInclusive newline bytes)
  few : shown.length ≤ logTailLines
  all : shown.length = logTailLines ∨ shownLines (wholeLines bytes) <:+ shown

/-- The fragment is not seen for one: it is blank, or there are lines enough after it, or the
last line that is not blank up to its end reads the same. -/
def Unseen (bytes : List UInt8) : Prop :=
  shownLines [fragment bytes] = [] ∨ logTailLines ≤ (shownLines (followingLines bytes)).length ∨
    (shownLines (splitInclusive newline (skippedPart bytes ++ fragment bytes))).getLast? =
      (shownLines [fragment bytes]).head?

theorem shownLines_append (pieces others : List (List UInt8)) :
    shownLines (pieces ++ others) = shownLines pieces ++ shownLines others := by
  rw [shownLines, List.map_append, List.filter_append, List.map_append]
  rfl

theorem shownLines_singleton (piece : List UInt8) :
    shownLines [piece] = [] ∨ shownLines [piece] = [String.ofList (lineText piece)] := by
  rw [shownLines, List.map_singleton, List.filter_cons]
  split
  · exact .inr rfl
  · exact .inl rfl

theorem tailLines_fromUtf8Lossy (bytes : List UInt8) (count : Nat) :
    tailLines (fromUtf8Lossy bytes) count =
      (shownLines (splitInclusive newline bytes)).drop
        ((shownLines (splitInclusive newline bytes)).length - count) := by
  rw [tailLines, lines_fromUtf8Lossy, shownLines, List.length_map, List.map_drop]

theorem readPart_eq (bytes : List UInt8) :
    (if bytes.length > logTailBytes then bytes.drop (bytes.length - logTailBytes) else bytes) =
      readPart bytes := by
  split
  · rfl
  · rename_i short
    rw [readPart, Nat.sub_eq_zero_of_le (Nat.le_of_not_lt short), List.drop_zero]

theorem daemonLog_readable (path : String) (bytes : List UInt8) :
    daemonLog (.ok path) (some ⟨bytes, none, none, none⟩) =
      .ok ⟨path, tailLines (fromUtf8Lossy (readPart bytes)) logTailLines⟩ := by
  simp only [daemonLog, failing, bind, pure, Except.bind, Except.pure, readPart_eq, ite_self]

theorem daemonLog_eq_ok (read : daemonLog (.ok path) (some ⟨bytes, metadata, seek, readToEnd⟩) = .ok shown) :
    shown = ⟨path, tailLines (fromUtf8Lossy (readPart bytes)) logTailLines⟩ := by
  cases metadata with
  | some reason => cases read
  | none =>
    cases readToEnd with
    | some reason =>
      simp only [daemonLog, failing, bind, Except.bind] at read
      split at read
      · cases seek <;> cases read
      · cases read
    | none =>
      cases seek with
      | none => exact Except.ok.inj (read.symm.trans (daemonLog_readable path bytes))
      | some reason =>
        simp only [daemonLog, failing, bind, pure, Except.bind, Except.pure, readPart_eq] at read
        split at read
        · cases read
        · exact (Except.ok.inj read).symm

theorem shownLines_readPart (bytes : List UInt8) : shownLines (splitInclusive newline (readPart bytes)) =
    shownLines [fragment bytes] ++ shownLines (followingLines bytes) := by
  rw [← shownLines_append, fragment, followingLines]
  cases splitInclusive newline (readPart bytes) with
  | nil => rfl
  | cons piece pieces => rfl

theorem shownLines_file (bytes : List UInt8) : shownLines (splitInclusive newline bytes) =
    shownLines (splitInclusive newline (skippedPart bytes ++ fragment bytes)) ++
      shownLines (followingLines bytes) := by
  rw [← shownLines_append, fragment, followingLines]
  have parts : skippedPart bytes ++ readPart bytes = bytes := List.take_append_drop _ _
  cases split : splitInclusive newline (readPart bytes) with
  | nil =>
    have none' : readPart bytes = [] := by
      by_contra some'
      exact splitInclusive_ne_nil newline some' split
    rw [none', List.append_nil] at parts
    rw [parts, List.head?_nil, Option.getD_none, List.append_nil, List.tail_nil, List.append_nil]
  | cons piece pieces =>
    rw [List.head?_cons, Option.getD_some, List.tail_cons, ← splitInclusive_append newline _ split, parts]

section Tail
variable {α : Type} {before after shown : List α}

theorem length_tail (count : Nat) (shown : List α) : (shown.drop (shown.length - count)).length ≤ count := by
  rw [List.length_drop]
  omega

theorem tail_enough (count : Nat) (shown : List α) :
    (shown.drop (shown.length - count)).length = count ∨ shown.drop (shown.length - count) = shown := by
  by_cases enough : count ≤ shown.length
  · refine .inl ?_
    rw [List.length_drop]
    omega
  · rw [Nat.sub_eq_zero_of_le (Nat.le_of_not_le enough)]
    exact .inr List.drop_zero

/-- Where `first` stands for the last of `before`, the tail with it is one of theirs exactly
if it falls off, or is the last of them. -/
theorem tail_suffix_iff (count : Nat) (first : α) :
    (first :: after).drop ((first :: after).length - count) <:+ before ++ after ↔
      count ≤ after.length ∨ before.getLast? = some first := by
  by_cases enough : count ≤ after.length
  · have past : (first :: after).length - count = after.length - count + 1 := by
      rw [List.length_cons]
      omega
    rw [past, List.drop_succ_cons]
    exact iff_of_true ((List.drop_suffix _ _).trans (List.suffix_append _ _)) (.inl enough)
  · have none' : (first :: after).length - count = 0 := by
      rw [List.length_cons]
      omega
    rw [none', List.drop_zero, or_iff_right enough, ← List.singleton_append, List.suffix_append_self_iff,
      List.singleton_suffix_iff_getLast?_eq_some]

end Tail

theorem shownLines_whole (bytes : List UInt8) :
    shownLines (wholeLines bytes) <:+ shownLines (splitInclusive newline (readPart bytes)) := by
  rw [wholeLines]
  split
  · exact List.suffix_refl _
  · rw [shownLines_readPart]
    exact List.suffix_append _ _

theorem tail_entire_iff (bytes : List UInt8) :
    tailLines (fromUtf8Lossy (readPart bytes)) logTailLines <:+ shownLines (splitInclusive newline bytes) ↔
      Unseen bytes := by
  rw [tailLines_fromUtf8Lossy, shownLines_readPart, shownLines_file, Unseen]
  obtain blank | seen := shownLines_singleton (fragment bytes)
  · rw [blank, List.nil_append]
    exact iff_of_true ((List.drop_suffix _ _).trans (List.suffix_append _ _)) (.inl rfl)
  · rw [seen, List.singleton_append, tail_suffix_iff, List.head?_singleton]
    exact (or_iff_right (List.cons_ne_nil _ _)).symm

/-- What is shown is few, and short of nothing that is whole, so it is the last lines exactly
where it is entire ones. -/
theorem lastLines_iff (bytes : List UInt8) :
    LastLines bytes (tailLines (fromUtf8Lossy (readPart bytes)) logTailLines) ↔ Unseen bytes := by
  rw [← tail_entire_iff]
  refine ⟨LastLines.entire, fun entire => ⟨entire, ?_, ?_⟩⟩
  · rw [tailLines_fromUtf8Lossy]
    exact length_tail _ _
  · rw [tailLines_fromUtf8Lossy]
    refine (tail_enough _ _).imp_right fun all => ?_
    rw [all]
    exact shownLines_whole bytes

theorem wholeLines_suffix (bytes : List UInt8) : wholeLines bytes <:+ splitInclusive newline bytes := by
  have parts : skippedPart bytes ++ readPart bytes = bytes := List.take_append_drop _ _
  rw [wholeLines]
  split
  · rename_i starts
    have ended : ∀ byte ∈ (skippedPart bytes).getLast?, byte = newline := by
      intro byte last
      rw [atLineStart, Option.mem_def.mp last] at starts
      exact of_decide_eq_true starts
    have pieces := splitInclusive_ended newline ended (readPart bytes)
    rw [parts] at pieces
    rw [pieces]
    exact List.suffix_append _ _
  · rw [followingLines]
    cases split : splitInclusive newline (readPart bytes) with
    | nil => exact List.nil_suffix
    | cons piece pieces =>
      have file := splitInclusive_append newline (skippedPart bytes) split
      rw [parts] at file
      rw [file]
      exact List.suffix_append _ _

/-- Where the part read begins with a line, or with the file, nothing is seen of a fragment. -/
theorem unseen_atLineStart (starts : atLineStart bytes = true) : Unseen bytes := by
  rw [← tail_entire_iff, tailLines_fromUtf8Lossy]
  have whole := wholeLines_suffix bytes
  rw [wholeLines, if_pos starts] at whole
  obtain ⟨earlier, file⟩ := whole
  rw [← file, shownLines_append]
  exact (List.drop_suffix _ _).trans (List.suffix_append _ _)

theorem unseen_short (short : bytes.length ≤ logTailBytes) : Unseen bytes := by
  apply unseen_atLineStart
  rw [atLineStart, skippedPart, Nat.sub_eq_zero_of_le short, List.take_zero]
  rfl

/-- For every log, what is returned is its last lines exactly where no fragment of a line is
seen, as where the log is short or the part read begins with a line. No log is an empty one. -/
theorem daemonLog_lastLines_iff (path : String) :
    daemonLog (.ok path) none = .ok ⟨path, []⟩ ∧ ∀ bytes,
      (∃ shown, daemonLog (.ok path) (some ⟨bytes, none, none, none⟩) = .ok shown) ∧
      (∀ metadata seek readToEnd shown,
        daemonLog (.ok path) (some ⟨bytes, metadata, seek, readToEnd⟩) = .ok shown →
          (LastLines bytes shown.lines ↔ Unseen bytes)) ∧
      (bytes.length ≤ logTailBytes ∨ atLineStart bytes = true → Unseen bytes) := by
  refine ⟨rfl, fun bytes => ⟨⟨_, daemonLog_readable path bytes⟩, ?_, Or.rec unseen_short unseen_atLineStart⟩⟩
  intro metadata seek readToEnd shown read
  rw [daemonLog_eq_ok read]
  dsimp only
  exact lastLines_iff bytes

def longLine (count : Nat) : List UInt8 := List.replicate count 0x61

theorem longLine_unended (count : Nat) : newline ∉ longLine count :=
  fun member => absurd (List.eq_of_mem_replicate member) (by decide)

theorem fromUtf8Lossy_longLine (count : Nat) : fromUtf8Lossy (longLine count) = List.replicate count 'a' := by
  induction count with
  | zero => rfl
  | succ count ih =>
    rw [longLine, List.replicate_succ, List.replicate_succ, ← ih]
    rfl

theorem splitInclusive_longLine (some' : count ≠ 0) :
    splitInclusive newline (longLine count) = [longLine count] := by
  apply splitInclusive_unended newline _ (longLine_unended count)
  rwa [longLine, ne_eq, List.replicate_eq_nil_iff]

theorem shownLines_longLine (some' : count ≠ 0) :
    shownLines [longLine count] = [String.ofList (List.replicate count 'a')] := by
  obtain ⟨less, rfl⟩ := Nat.exists_eq_succ_of_ne_zero some'
  have text : lineText (longLine (less + 1)) = List.replicate (less + 1) 'a' := by
    rw [lineText, fromUtf8Lossy_longLine, stripEnding, List.reverse_replicate, List.replicate_succ]
    rfl
  have letters : trim (List.replicate (less + 1) 'a') = List.replicate (less + 1) 'a' := by
    rw [trim, List.replicate_succ, List.dropWhile_cons_of_neg (by decide), ← List.replicate_succ,
      List.reverse_replicate, List.replicate_succ, List.dropWhile_cons_of_neg (by decide), ← List.replicate_succ,
      List.reverse_replicate]
  rw [shownLines, List.map_singleton, text, List.filter_singleton, letters]
  rfl

theorem tailLines_longLine (some' : count ≠ 0) :
    tailLines (fromUtf8Lossy (longLine count)) logTailLines = [String.ofList (List.replicate count 'a')] := by
  rw [tailLines_fromUtf8Lossy, splitInclusive_longLine some', shownLines_longLine some', List.length_singleton,
    Nat.sub_eq_zero_of_le (show 1 ≤ logTailLines by decide), List.drop_zero]

theorem drop_longLine (count : Nat) :
    (longLine (count + 1)).drop ((longLine (count + 1)).length - count) = longLine count := by
  simp only [longLine, List.length_replicate, Nat.add_sub_cancel_left, List.drop_replicate, Nat.add_sub_cancel]

/-- A log of one line, a byte longer than what is read: the line is shown without its first
letter. -/
theorem fragment_shown : ∃ shown,
    daemonLog (.ok "daemon.log") (some ⟨longLine (logTailBytes + 1), none, none, none⟩) = .ok shown ∧
      shown.lines = [String.ofList (List.replicate logTailBytes 'a')] ∧
      ¬ LastLines (longLine (logTailBytes + 1)) shown.lines := by
  have shown : tailLines (fromUtf8Lossy (longLine logTailBytes)) logTailLines =
      [String.ofList (List.replicate logTailBytes 'a')] := tailLines_longLine (by decide)
  refine ⟨⟨"daemon.log", tailLines (fromUtf8Lossy (longLine logTailBytes)) logTailLines⟩, ?_, ?_, ?_⟩
  · rw [daemonLog_readable, readPart, drop_longLine]
  · dsimp only
    exact shown
  · dsimp only
    intro last
    have entire := last.entire
    rw [shown, splitInclusive_longLine (Nat.succ_ne_zero _), shownLines_longLine (Nat.succ_ne_zero _)] at entire
    have same := String.ofList_injective (List.mem_singleton.mp (entire.subset List.mem_cons_self))
    have sizes := congrArg List.length same
    rw [List.length_replicate, List.length_replicate] at sizes
    exact absurd sizes (Nat.ne_of_lt (Nat.lt_succ_self _))

end Omnipresent
