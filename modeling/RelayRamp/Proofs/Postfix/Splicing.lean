import Mathlib.Data.List.DropRight
import Mathlib.Data.List.Induction
import RelayRamp.Proofs.Postfix.Services
import RelayRamp.Proofs.Text.Search

/-!
# Putting a block into a file

What stays of a file is what stands before its block and what stands after it, with a line end between them; the new
block comes below. What stays has no start marker, and nothing in it changes when the next block is put in place of this
one. So the last block wins, whatever blocks were in the file before, and no line outside a block is lost.
-/
namespace RelayRamp.Text

variable {p : Char → Bool} {s : List Char}

theorem dropEndWhile_append_singleton (p : Char → Bool) (s : List Char) (c : Char) :
    dropEndWhile p (s ++ [c]) = if p c then dropEndWhile p s else s ++ [c] := by
  by_cases drops : p c = true
  · simp [dropEndWhile, drops]
  · simp [dropEndWhile, drops]

theorem dropEndWhile_idem (p : Char → Bool) (s : List Char) : dropEndWhile p (dropEndWhile p s) = dropEndWhile p s := by
  rw [dropEndWhile, dropEndWhile, List.reverse_reverse, List.dropWhile_idempotent]

theorem dropEndWhile_prefix_self (p : Char → Bool) (s : List Char) : dropEndWhile p s <+: s := by
  have kept := List.reverse_prefix.mpr (List.dropWhile_suffix (l := s.reverse) p)
  rwa [List.reverse_reverse] at kept

end RelayRamp.Text

namespace RelayRamp.Postfix

open RelayRamp.Routing RelayRamp.Text

/-! ### Files with at most one block -/

/-- The file has one start marker at most, and an end marker after it. -/
structure Spliceable (text : List Char) : Prop where
  once : occurrences startMarker.toList text ≤ 1
  closed : startMarker.toList <:+: text →
    ∃ before after, text = before ++ (startMarker.toList ++ after) ∧ endMarker.toList <:+: after

/-- What stands before the block of a file and after it. The block goes from the start marker to the next end marker;
without a start marker all of the file stands before. -/
inductive Cut : List Char → List Char → List Char → Prop where
  | unmarked {text : List Char} (absent : ¬ startMarker.toList <:+: text) : Cut text text []
  | around {before body after : List Char} (first : ¬ endMarker.toList <:+: body) :
      Cut (before ++ (startMarker.toList ++ (body ++ (endMarker.toList ++ after)))) before after

theorem startMarker_headed : Headed startMarker.toList := ⟨'#', startMarker.toList.tail, by decide, by decide⟩

theorem endMarker_headed : Headed endMarker.toList := ⟨'#', endMarker.toList.tail, by decide, by decide⟩

theorem startMarker_unbroken : '\n' ∉ startMarker.toList := by decide

theorem Spliceable.cut {text : List Char} (ready : Spliceable text) : ∃ before after, Cut text before after := by
  by_cases marked : startMarker.toList <:+: text
  · obtain ⟨before, after, rfl, ended⟩ := ready.closed marked
    obtain ⟨body, rest, rfl, first⟩ := first_of_infix endMarker_headed.nonempty ended
    exact ⟨before, rest, .around first⟩
  · exact ⟨text, [], .unmarked marked⟩

/-- The only start marker of a file is that of its block. -/
theorem Cut.alone {text before after : List Char} (cut : Cut text before after)
    (once : occurrences startMarker.toList text ≤ 1) :
    ¬ startMarker.toList <:+: before ∧ ¬ startMarker.toList <:+: after := by
  have some := startMarker_headed.nonempty
  cases cut with
  | unmarked absent => exact ⟨absent, fun inside => some (List.infix_nil.mp inside)⟩
  | @around before body after first =>
    rw [startMarker_headed.occurrences_append] at once
    constructor
    · rw [← occurrences_eq_zero_iff some]
      omega
    · have none : ¬ startMarker.toList <:+: body ++ (endMarker.toList ++ after) := by
        rw [← occurrences_eq_zero_iff some]
        omega
      exact fun inside => none (List.infix_append_of_infix_right (List.infix_append_of_infix_right inside))

/-! ### What stays of a file -/

theorem filledLines_dropEndWhile (s : List Char) : filledLines (dropEndWhile isNewline s) = filledLines s := by
  induction s using List.reverseRecOn with
  | nil => rfl
  | append_singleton s c ih =>
    rw [dropEndWhile_append_singleton]
    split
    · rename_i newline
      obtain rfl : c = '\n' := by simpa [isNewline] using newline
      rw [ih, filledLines_append, filledLines_nil, List.append_nil]
    · rfl

theorem filledLines_dropWhile (s : List Char) : filledLines (s.dropWhile isNewline) = filledLines s := by
  induction s with
  | nil => rfl
  | cons c rest ih =>
    rw [List.dropWhile_cons]
    split
    · rename_i newline
      obtain rfl : c = '\n' := by simpa [isNewline] using newline
      rw [ih]
      exact (filledLines_append [] rest).symm
    · rfl

theorem withoutBlock_unmarked {text : List Char} (absent : ¬ startMarker.toList <:+: text) : withoutBlock text = text := by
  rw [withoutBlock, splitAround_none startMarker_headed.nonempty absent]

theorem withoutBlock_around {before body : List Char} (absent : ¬ startMarker.toList <:+: before)
    (first : ¬ endMarker.toList <:+: body) (after : List Char) :
    withoutBlock (before ++ (startMarker.toList ++ (body ++ (endMarker.toList ++ after)))) =
      dropEndWhile isNewline before ++ '\n' :: after.dropWhile isNewline := by
  rw [withoutBlock, startMarker_headed.splitAround_first absent]
  dsimp only
  rw [endMarker_headed.splitAround_first first]
  rfl

/-- What stays of a file, without the line ends after it. -/
def standing (text : List Char) : List Char := dropEndWhile isNewline (withoutBlock text)

/-- What stays has the lines before the block and those after it, and no start marker. -/
theorem Cut.standing {text before after : List Char} (cut : Cut text before after)
    (once : occurrences startMarker.toList text ≤ 1) :
    filledLines (standing text) = filledLines before ++ filledLines after ∧
      ¬ startMarker.toList <:+: standing text := by
  obtain ⟨absent, none⟩ := cut.alone once
  have shorter := (dropEndWhile_prefix_self isNewline (withoutBlock text)).isInfix
  rw [Postfix.standing, filledLines_dropEndWhile]
  cases cut with
  | unmarked =>
    rw [withoutBlock_unmarked absent] at shorter ⊢
    exact ⟨by simp, fun inside => absent (inside.trans shorter)⟩
  | around first =>
    rw [withoutBlock_around absent first] at shorter ⊢
    refine ⟨?_, fun inside => ?_⟩
    · rw [filledLines_append, filledLines_dropEndWhile, filledLines_dropWhile]
    · rcases (infix_append_cons_iff startMarker_headed.nonempty startMarker_unbroken).mp (inside.trans shorter) with front | back
      · exact absent (front.trans (dropEndWhile_prefix_self ..).isInfix)
      · exact none (back.trans (List.dropWhile_suffix _).isInfix)

/-! ### The block below -/

/-- A block with this text between its markers. -/
def framed (inner : List Char) : List Char := startMarker.toList ++ (inner ++ (endMarker.toList ++ ['\n']))

/-- What stays of a file, with a line end before the block. -/
def above (kept : List Char) : List Char := if kept.isEmpty then [] else kept ++ ['\n']

theorem dropEndWhile_framed (inner : List Char) : dropEndWhile isNewline (framed inner) ++ ['\n'] = framed inner := by
  have last : endMarker.toList = endMarker.toList.dropLast ++ ['-'] := by decide
  have written : framed inner = startMarker.toList ++ inner ++ endMarker.toList.dropLast ++ ['-'] ++ ['\n'] := by
    rw [framed, last]
    simp
  rw [written, dropEndWhile_append_singleton, dropEndWhile_append_singleton]
  rfl

theorem spliceChars_framed (text inner : List Char) :
    spliceChars text (framed inner) = above (standing text) ++ framed inner := by
  rw [spliceChars, List.append_assoc, dropEndWhile_framed]
  rfl

theorem filledLines_above (kept rest : List Char) :
    filledLines (above kept ++ rest) = filledLines kept ++ filledLines rest := by
  rw [above]
  split
  · rename_i empty
    rw [List.isEmpty_iff.mp empty]
    rfl
  · rw [List.append_assoc, List.singleton_append, filledLines_append]

theorem occurrences_above {kept : List Char} (absent : ¬ startMarker.toList <:+: kept) :
    occurrences startMarker.toList (above kept) = 0 := by
  have some := startMarker_headed.nonempty
  have none := (occurrences_eq_zero_iff some).mpr absent
  rw [above]
  split
  · rfl
  · rw [occurrences_append_cons some startMarker_unbroken, none, occurrences_nil]

theorem occurrences_inner {inner : List Char} (plain : '#' ∉ inner) :
    occurrences startMarker.toList (inner ++ (endMarker.toList ++ ['\n'])) = 0 := by
  have ending : occurrences startMarker.toList (endMarker.toList ++ ['\n']) = 0 := by decide
  have first : startMarker.toList = '#' :: startMarker.toList.tail := by decide
  rw [first] at ending ⊢
  rw [occurrences_skip plain, ending]

theorem occurrences_spliced {kept inner : List Char} (absent : ¬ startMarker.toList <:+: kept) (plain : '#' ∉ inner) :
    occurrences startMarker.toList (above kept ++ framed inner) = 1 := by
  rw [framed, startMarker_headed.occurrences_append, occurrences_above absent, occurrences_inner plain]

/-- The next splice finds what stayed, as it was. -/
theorem standing_spliced {kept inner : List Char} (absent : ¬ startMarker.toList <:+: kept)
    (trimmed : dropEndWhile isNewline kept = kept) (plain : '#' ∉ inner) : standing (above kept ++ framed inner) = kept := by
  have none : ¬ startMarker.toList <:+: above kept :=
    (occurrences_eq_zero_iff startMarker_headed.nonempty).mp (occurrences_above absent)
  have first : ¬ endMarker.toList <:+: inner := fun inside =>
    plain (inside.mem (show '#' ∈ endMarker.toList by decide))
  have bare : dropEndWhile isNewline (above kept) = kept := by
    rw [above]
    split
    · rename_i empty
      rw [List.isEmpty_iff.mp empty]
      rfl
    · rw [dropEndWhile_append_singleton]
      exact trimmed
  rw [standing, framed, withoutBlock_around none first, bare]
  exact (dropEndWhile_append_singleton isNewline kept '\n').trans trimmed

/-! ### Blocks of rules -/

/-- The names of the transports that the rules of the block route to are valid. -/
def NamesValid (rules : List TransportRule) : Prop :=
  ∀ rule ∈ rules.filter (·.isActive), rule.transport.validate = .ok ()

instance (rules : List TransportRule) : Decidable (NamesValid rules) := inferInstanceAs (Decidable (∀ _ ∈ _, _))

theorem NamesValid.declared {rules : List TransportRule} (valid : NamesValid rules) :
    ∀ entry ∈ rosterOf [] ((rules.filter (·.isActive)).map (·.toRuleDraft)), entry.1.validate = .ok () := by
  intro entry member
  rcases mem_rosterOf member with start | ⟨draft, drafted, same⟩
  · cases start
  · obtain ⟨rule, active, rfl⟩ := List.mem_map.mp drafted
    exact same ▸ valid rule active

theorem bodyLines_filled {declared : Roster TransportLimits} (valid : ∀ entry ∈ declared, entry.1.validate = .ok ()) :
    ∀ line ∈ bodyLines declared, line ≠ [] := by
  intro line member
  obtain ⟨entry, present, rfl | ⟨setting, -, rfl⟩⟩ := mem_bodyLines member
  · intro empty
    have spoken := (headLine_starts (valid entry present) entry.2).2
    rw [empty] at spoken
    cases spoken
  · exact List.append_ne_nil_of_left_ne_nil (by decide) _

theorem renderServiceBlock_framed {rules : List TransportRule} (valid : NamesValid rules) :
    ∃ inner, '#' ∉ inner ∧ (renderServiceBlock rules).toList = framed inner := by
  let declared := rosterOf [] ((rules.filter (·.isActive)).map (·.toRuleDraft))
  refine ⟨'\n' :: (bodyLines declared).flatMap (· ++ ['\n']), fun member => ?_, ?_⟩
  · rcases List.mem_cons.mp member with newline | member
    · exact absurd newline (by decide)
    · obtain ⟨line, present, member⟩ := List.mem_flatMap.mp member
      rcases List.mem_append.mp member with inside | newline
      · exact bodyLines_lack valid.declared (Or.inr rfl) line present inside
      · exact absurd (List.mem_singleton.mp newline) (by decide)
  · have block : (renderServiceBlock rules).toList = _ := blockOf_toList declared
    rw [block, framed]
    simp

theorem filledLines_block {rules : List TransportRule} (valid : NamesValid rules) :
    filledLines (renderServiceBlock rules).toList = (blockLines rules).map String.toList := by
  let declared := rosterOf [] ((rules.filter (·.isActive)).map (·.toRuleDraft))
  have block : (renderServiceBlock rules).toList = _ := blockOf_toList declared
  have lines : (blockLines rules).map String.toList = startMarker.toList :: bodyLines declared ++ [endMarker.toList] := by
    rw [← bodyLines_eq]
    simp only [blockLines, List.map_cons, List.map_append, List.cons_append, List.map_nil, declared]
  have filled : ∀ line ∈ startMarker.toList :: bodyLines declared ++ [endMarker.toList], line ≠ [] :=
    List.forall_mem_append.mpr ⟨List.forall_mem_cons.mpr ⟨startMarker_headed.nonempty, bodyLines_filled valid.declared⟩,
      List.forall_mem_singleton.mpr endMarker_headed.nonempty⟩
  rw [block, filledLines_lines (blockOf_unbroken valid.declared) filled, lines]

/-! ### The last block wins -/

variable {text : String} {before after : List Char}

/-- A splice leaves what stays of the file, and puts the block below it. -/
theorem splice_toList {rules : List TransportRule} (valid : NamesValid rules) (text : String) :
    (splice text (renderServiceBlock rules)).toList =
      above (standing text.toList) ++ (renderServiceBlock rules).toList := by
  obtain ⟨inner, -, block⟩ := renderServiceBlock_framed valid
  rw [splice, String.toList_ofList, block, spliceChars_framed]

/-- What stays of a file stays when a block is put into it. -/
theorem standing_splice {rules : List TransportRule} (valid : NamesValid rules)
    (absent : ¬ startMarker.toList <:+: standing text.toList) :
    standing (splice text (renderServiceBlock rules)).toList = standing text.toList := by
  obtain ⟨inner, plain, block⟩ := renderServiceBlock_framed valid
  rw [splice_toList valid, block]
  exact standing_spliced absent (dropEndWhile_idem ..) plain

/-- And so it does when any number of blocks have been. -/
theorem standing_splices {earlier : List (List TransportRule)} (valid : ∀ rules ∈ earlier, NamesValid rules)
    (absent : ¬ startMarker.toList <:+: standing text.toList) :
    standing (earlier.foldl (fun text rules => splice text (renderServiceBlock rules)) text).toList =
      standing text.toList := by
  induction earlier generalizing text with
  | nil => rfl
  | cons rules rest ih =>
    obtain ⟨here, later⟩ := List.forall_mem_cons.mp valid
    have kept := standing_splice here absent
    rw [List.foldl_cons, ih later (by rw [kept]; exact absent), kept]

/-- Whatever blocks were put into a file, the next one makes of it what it would have made of the file without them: a
file with one start marker, of the lines outside the first block and then the lines of the last one. -/
theorem last_block_wins (ready : Spliceable text.toList) {rules : List TransportRule} (valid : NamesValid rules) :
    (∀ earlier, NamesValid earlier → splice (splice text (renderServiceBlock earlier)) (renderServiceBlock rules) =
      splice text (renderServiceBlock rules)) ∧
    (∀ earlier : List (List TransportRule), (∀ rules ∈ earlier, NamesValid rules) →
      splice (earlier.foldl (fun text rules => splice text (renderServiceBlock rules)) text) (renderServiceBlock rules) =
        splice text (renderServiceBlock rules)) ∧
    occurrences startMarker.toList (splice text (renderServiceBlock rules)).toList = 1 ∧
    (∃ before after, Cut text.toList before after) ∧
    ∀ before after, Cut text.toList before after →
      filledLines (splice text (renderServiceBlock rules)).toList =
        filledLines before ++ filledLines after ++ (blockLines rules).map String.toList := by
  obtain ⟨front, back, parted⟩ := ready.cut
  have absent := (parted.standing ready.once).2
  have overwritten (earlier : List (List TransportRule)) (valid' : ∀ rules ∈ earlier, NamesValid rules) :
      splice (earlier.foldl (fun text rules => splice text (renderServiceBlock rules)) text) (renderServiceBlock rules) =
        splice text (renderServiceBlock rules) := by
    refine String.toList_inj.mp ?_
    rw [splice_toList valid, splice_toList valid, standing_splices valid' absent]
  refine ⟨fun earlier valid' => ?_, overwritten, ?_, ⟨front, back, parted⟩, fun before after cut => ?_⟩
  · exact overwritten [earlier] (List.forall_mem_singleton.mpr valid')
  · obtain ⟨inner, plain, block⟩ := renderServiceBlock_framed valid
    rw [splice_toList valid, block, occurrences_spliced absent plain]
  · rw [splice_toList valid, filledLines_above, (cut.standing ready.once).1, filledLines_block valid]

/-- The old block begins and ends in the middle of a line. -/
theorem last_block_wins_midline :
    let rule (transport : String) : TransportRule :=
      { id := 1, pattern := "*", transport := ⟨transport⟩, limits := ⟨2, 1⟩, isActive := true, description := none }
    let text := "smtp\n\nqmgr " ++ startMarker ++ "old" ++ endMarker ++ " tail\n\ndns"
    Spliceable text.toList ∧ NamesValid [rule "bulk"] ∧ NamesValid [rule "slow"] ∧
    splice (splice text (renderServiceBlock [rule "slow"])) (renderServiceBlock [rule "bulk"]) =
      splice text (renderServiceBlock [rule "bulk"]) ∧
    filledLines (splice text (renderServiceBlock [rule "bulk"])).toList =
      ["smtp", "qmgr ", " tail", "dns"].map String.toList ++ (blockLines [rule "bulk"]).map String.toList := by
  intro rule text
  have parted : text.toList = "smtp\n\nqmgr ".toList ++
      (startMarker.toList ++ ("old".toList ++ (endMarker.toList ++ " tail\n\ndns".toList))) := by
    simp only [text, String.toList_append, List.append_assoc]
  have ready : Spliceable text.toList :=
    { once := by decide
      closed := fun _ => ⟨_, _, parted, List.infix_append' ..⟩ }
  have bulk : NamesValid [rule "bulk"] := by decide
  have slow : NamesValid [rule "slow"] := by decide
  obtain ⟨same, -, -, -, lines⟩ := last_block_wins ready bulk
  refine ⟨ready, bulk, slow, same _ slow, ?_⟩
  refine lines "smtp\n\nqmgr ".toList " tail\n\ndns".toList (parted ▸ .around ?_) |>.trans (congrArg (· ++ _) ?_)
  · decide
  · decide

end RelayRamp.Postfix
