import RelayRamp.Policy.Conversation

/-!
# The requests of a policy stream

What a connection asks is told by its lines alone, and not by the pieces in which they are read nor by the cut of the
stream into reads. The lines that end with a newline and are not too long have texts; between one empty text and the
next stand the lines of one request. The reader comes to the same: it gets through each line in as many pieces as it
takes, is back at the first octet of a piece with the newline, and has kept nothing of a line that is too long.
-/
namespace RelayRamp.Policy

open RelayRamp.Text

/-! ### The lines of a stream -/

/-- The lines that end with a newline, without it. -/
def terminated (stream : List UInt8) : List (List UInt8) := (stream.splitOn newline).dropLast

/-- The line is not too long, with its newline. -/
def fits (line : List UInt8) : Bool := line.length + 1 ≤ maxLineOctets

/-- The texts of the lines that are not too long. -/
def texts (stream : List UInt8) : List (List Char) :=
  ((terminated stream).filter fits).map fun line => lineText (line ++ [newline])

def PolicyRequest.ofLines (lines : List (List Char)) : PolicyRequest := lines.foldl .push .empty

/-- The requests of a stream. What follows the last empty text is not one yet. -/
def framed (stream : List UInt8) : List PolicyRequest := ((texts stream).splitOn []).dropLast.map .ofLines

theorem terminated_line {line : List UInt8} (plain : newline ∉ line) (rest : List UInt8) :
    terminated (line ++ newline :: rest) = line :: terminated rest := by
  rw [terminated, List.splitOn_append_cons_self_of_not_mem plain,
    List.dropLast_cons_of_ne_nil (List.splitOn_ne_nil _ _), terminated]

theorem terminated_rest {rest : List UInt8} (plain : newline ∉ rest) : terminated rest = [] := by
  rw [terminated, List.splitOn_eq_singleton plain]
  rfl

/-- At a newline the lines of a stream come apart. -/
theorem terminated_append (front rest : List UInt8) :
    terminated (front ++ newline :: rest) = front.splitOn newline ++ terminated rest := by
  rw [terminated, List.splitOn_append_cons_self, List.dropLast_append_of_ne_nil (List.splitOn_ne_nil _ _), terminated]

theorem texts_line {line : List UInt8} (plain : newline ∉ line) (rest : List UInt8) :
    texts (line ++ newline :: rest) =
      if fits line then lineText (line ++ [newline]) :: texts rest else texts rest := by
  rw [texts, terminated_line plain]
  by_cases short : fits line = true
  · rw [List.filter_cons_of_pos short, if_pos short, List.map_cons, texts]
  · rw [List.filter_cons_of_neg short, if_neg short, texts]

theorem texts_rest {rest : List UInt8} (plain : newline ∉ rest) : texts rest = [] := by
  rw [texts, terminated_rest plain]
  rfl

/-- The front of a stream has ended its lines. -/
def AtLineStart (front : List UInt8) : Prop := front = [] ∨ ∃ body, front = body ++ [newline]

/-- A line that is too long leaves no trace. -/
theorem texts_overlong {front line : List UInt8} (start : AtLineStart front) (plain : newline ∉ line)
    (long : ¬ fits line = true) (rest : List UInt8) : texts (front ++ (line ++ newline :: rest)) = texts (front ++ rest) := by
  rcases start with rfl | ⟨body, rfl⟩
  · simpa [long] using texts_line plain rest
  · simp only [texts, List.append_assoc, List.singleton_append, terminated_append body, terminated_line plain rest,
      List.filter_append, List.filter_cons_of_neg long]

/-! ### From texts to requests -/

/-- The requests that texts close, of which the first may have begun before. -/
def closed (request : PolicyRequest) : List (List Char) → List PolicyRequest
  | [] => []
  | text :: texts => if text = [] then request :: closed .empty texts else closed (request.push text) texts

theorem modifyHead_nothing : ∀ parts : List (List (List Char)), parts.modifyHead ([] ++ ·) = parts
  | [] => rfl
  | _ :: _ => rfl

theorem closed_ofLines (begun : List (List Char)) (texts : List (List Char)) :
    closed (.ofLines begun) texts = ((texts.splitOn []).modifyHead (begun ++ ·)).dropLast.map .ofLines := by
  induction texts generalizing begun with
  | nil => rfl
  | cons text texts ih =>
    rw [closed, List.splitOn_cons_eq_if_modifyHead]
    by_cases blank : text = []
    · subst blank
      have anew := ih []
      rw [modifyHead_nothing] at anew
      rw [if_pos rfl, if_pos (beq_self_eq_true _), List.modifyHead_cons,
        List.dropLast_cons_of_ne_nil (List.splitOn_ne_nil _ _), List.map_cons, ← anew, List.append_nil]
      rfl
    · have pushed : (PolicyRequest.ofLines begun).push text = .ofLines (begun ++ [text]) := by
        rw [PolicyRequest.ofLines, PolicyRequest.ofLines, List.foldl_append]
        rfl
      rw [if_neg blank, if_neg (by simpa using blank), pushed, ih, List.modifyHead_modifyHead]
      congr 3
      funext lines
      simp

theorem framed_eq (stream : List UInt8) : framed stream = closed .empty (texts stream) := by
  have closes := closed_ofLines [] (texts stream)
  rw [modifyHead_nothing] at closes
  exact closes.symm

/-- Every empty text closes one request. -/
theorem length_closed (request : PolicyRequest) (texts : List (List Char)) :
    (closed request texts).length = texts.count [] := by
  induction texts generalizing request with
  | nil => rfl
  | cons text texts ih =>
    rw [closed]
    by_cases blank : text = []
    · rw [if_pos blank, List.length_cons, ih, blank, List.count_cons_self]
    · rw [if_neg blank, ih, List.count_cons_of_ne blank]

/-! ### Reading pieces -/

namespace Intake

theorem receive_append (i : Intake) (front rest : List UInt8) :
    i.receive (front ++ rest) =
      (((i.receive front).1.receive rest).1, (i.receive front).2 ++ ((i.receive front).1.receive rest).2) := by
  induction front generalizing i with
  | nil => rfl
  | cons octet front ih =>
    simp only [List.cons_append, receive, ih, List.append_assoc]

/-- An octet that neither ends the line nor fills the piece is kept. -/
theorem next_open {octet : UInt8} (other : octet ≠ newline) {room : Nat} (more : 1 < room) (piece : List UInt8)
    (discarding : Bool) (request : PolicyRequest) :
    next ⟨piece, room, discarding, request⟩ octet = (⟨octet :: piece, room - 1, discarding, request⟩, none) := by
  have left : ¬ (octet = newline ∨ room - 1 = 0) := by
    simp only [other, false_or]
    omega
  rw [next, if_neg left]

/-- An octet that fills the piece before the line ends makes the line too long. -/
theorem next_full {octet : UInt8} (other : octet ≠ newline) (piece : List UInt8) (discarding : Bool)
    (request : PolicyRequest) : next ⟨piece, 1, discarding, request⟩ octet = (awaiting true request, none) := by
  have filled : octet = newline ∨ 1 - 1 = 0 := .inr rfl
  rw [next, if_pos filled, close]
  simp [other]

theorem next_newline (piece : List UInt8) (room : Nat) (discarding : Bool) (request : PolicyRequest) :
    next ⟨piece, room, discarding, request⟩ newline =
      if discarding then (awaiting false request, none)
      else takeLine request (lineText (piece.reverse ++ [newline])) := by
  have ended : newline = newline ∨ room - 1 = 0 := .inl rfl
  rw [next, if_pos ended, close]
  cases discarding with
  | true => rfl
  | false => simp

/-- Octets that leave room in the piece are kept. -/
theorem receive_open {octets : List UInt8} (plain : newline ∉ octets) {room : Nat} (more : octets.length < room)
    (piece : List UInt8) (discarding : Bool) (request : PolicyRequest) :
    receive ⟨piece, room, discarding, request⟩ octets =
      (⟨octets.reverse ++ piece, room - octets.length, discarding, request⟩, []) := by
  induction octets generalizing piece room with
  | nil => rfl
  | cons octet octets ih =>
    obtain ⟨other, plain⟩ := not_or.mp fun member => plain (List.mem_cons.mpr member)
    rw [List.length_cons] at more
    rw [receive, next_open (Ne.symm other) (by omega)]
    simp only [ih plain (show octets.length < room - 1 by omega)]
    simp [Nat.sub_sub, Nat.add_comm]

/-- A piece without a newline is dropped, and the rest of its line will be. -/
theorem receive_piece {octets : List UInt8} (plain : newline ∉ octets) (length : octets.length = maxLineOctets)
    (discarding : Bool) (request : PolicyRequest) :
    (awaiting discarding request).receive octets = (awaiting true request, []) := by
  obtain rfl | ⟨front, last, rfl⟩ := octets.eq_nil_or_concat
  · cases length
  · rw [List.concat_eq_append] at plain length ⊢
    rw [List.mem_append, not_or] at plain
    have other : last ≠ newline := fun same => plain.2 (by simp [same])
    rw [List.length_append, List.length_singleton] at length
    rw [receive_append, awaiting, receive_open plain.1 (by omega)]
    have room : maxLineOctets - front.length = 1 := by omega
    rw [room]
    simp only [receive, next_full other]
    rfl

/-- What is left of a line that is too long is dropped with its newline. -/
theorem receive_discarding {line : List UInt8} (plain : newline ∉ line) (request : PolicyRequest) :
    (awaiting true request).receive (line ++ [newline]) = (awaiting false request, []) := by
  induction length : line.length using Nat.strongRecOn generalizing line with
  | _ n ih =>
    by_cases last : line.length < maxLineOctets
    · rw [receive_append, awaiting, receive_open plain last]
      simp only [receive, next_newline]
      rfl
    · -- The line goes on past this piece.
      rw [← List.take_append_drop maxLineOctets line, List.append_assoc, receive_append,
        receive_piece (fun member => plain (List.mem_of_mem_take member)) (List.length_take_of_le (by omega))]
      have shorter : (line.drop maxLineOctets).length < n := by
        rw [List.length_drop, ← length]
        have := show 0 < maxLineOctets by decide
        omega
      rw [ih _ shorter (fun member => plain (List.mem_of_mem_drop member)) rfl]
      rfl

/-- A line that fits is taken in, and one that is too long leaves all as it was. -/
theorem receive_line {line : List UInt8} (plain : newline ∉ line) (request : PolicyRequest) :
    (awaiting false request).receive (line ++ [newline]) =
      if fits line then
        ((takeLine request (lineText (line ++ [newline]))).1, (takeLine request (lineText (line ++ [newline]))).2.toList)
      else (awaiting false request, []) := by
  by_cases short : fits line = true
  · rw [if_pos short, receive_append, awaiting, receive_open plain (of_decide_eq_true short)]
    simp only [receive, next_newline]
    simp
  · have long : maxLineOctets ≤ line.length := Nat.le_of_not_lt fun less => short (decide_eq_true less)
    rw [if_neg short, ← List.take_append_drop maxLineOctets line, List.append_assoc, receive_append,
      receive_piece (fun member => plain (List.mem_of_mem_take member)) (List.length_take_of_le long),
      receive_discarding fun member => plain (List.mem_of_mem_drop member)]
    rfl

/-- Nothing but a newline ends a request. -/
theorem receive_rest {octets : List UInt8} (plain : newline ∉ octets) (i : Intake) : (i.receive octets).2 = [] := by
  induction octets generalizing i with
  | nil => rfl
  | cons octet octets ih =>
    obtain ⟨other, plain⟩ := not_or.mp fun member => plain (List.mem_cons.mpr member)
    have unended : (i.next octet).2 = none := by
      rw [next]
      split
      · simp [close, Ne.symm other]
      · rfl
    simp only [receive, unended, ih plain]
    rfl

/-- From the start of a line the reader gives the requests that the texts close. -/
theorem receive_closed (stream : List UInt8) (request : PolicyRequest) :
    ((awaiting false request).receive stream).2 = closed request (texts stream) := by
  induction length : stream.length using Nat.strongRecOn generalizing stream request with
  | _ n ih =>
    by_cases ends : newline ∈ stream
    · obtain ⟨line, rest, rfl, plain⟩ := List.eq_append_cons_of_mem ends
      have shorter : rest.length < n := by
        rw [← length, List.length_append, List.length_cons]
        omega
      have split : line ++ newline :: rest = line ++ [newline] ++ rest := by simp
      rw [texts_line plain, split, receive_append, receive_line plain]
      by_cases short : fits line = true
      · rw [if_pos short, if_pos short, closed, takeLine]
        by_cases blank : lineText (line ++ [newline]) = []
        · rw [if_pos blank, if_pos (List.isEmpty_iff.mpr blank)]
          exact congrArg (request :: ·) (ih _ shorter rest .empty rfl)
        · rw [if_neg blank, if_neg (mt List.isEmpty_iff.mp blank)]
          exact ih _ shorter rest _ rfl
      · rw [if_neg short, if_neg short]
        exact ih _ shorter rest request rfl
    · rw [texts_rest ends, receive_rest ends]
      rfl

theorem receive_framed (stream : List UInt8) : (empty.receive stream).2 = framed stream := by
  rw [framed_eq]
  exact receive_closed stream .empty

/-! ### The end of a piece -/

theorem close_awaiting (i : Intake) : ∃ discarding request, i.close.1 = awaiting discarding request := by
  unfold close takeLine
  dsimp only
  split
  · exact ⟨_, _, rfl⟩
  · split
    · exact ⟨false, .empty, rfl⟩
    · exact ⟨_, _, rfl⟩

/-- Octets that do not end the piece are kept in it. -/
theorem receive_unended {i : Intake} {octets : List UInt8} (unended : i.endsPiece octets = false) :
    i.receive octets =
      (⟨octets.reverse ++ i.piece, i.room - octets.length, i.discarding, i.request⟩, []) := by
  obtain ⟨plain, more⟩ : newline ∉ octets ∧ octets.length < i.room := by simpa [endsPiece] using unended
  exact receive_open plain more i.piece i.discarding i.request

/-- Octets that end the piece bring the reader to the front of another one on their way. -/
theorem receive_ended {i : Intake} {octets : List UInt8} (roomy : 0 < i.room) (ended : i.endsPiece octets = true) :
    ∃ front octet rest discarding request, octets = front ++ octet :: rest ∧
      (i.receive (front ++ [octet])).1 = awaiting discarding request := by
  induction octets generalizing i with
  | nil => exact absurd ended (by simpa [endsPiece] using Nat.pos_iff_ne_zero.mp roomy)
  | cons octet octets ih =>
    by_cases closes : octet = newline ∨ i.room - 1 = 0
    · obtain ⟨discarding, request, begun⟩ := close_awaiting { i with piece := octet :: i.piece, room := i.room - 1 }
      refine ⟨[], octet, octets, discarding, request, rfl, ?_⟩
      simp only [List.nil_append, receive, next, if_pos closes]
      exact begun
    · obtain ⟨other, room⟩ := not_or.mp closes
      have later : endsPiece { i with piece := octet :: i.piece, room := i.room - 1 } octets = true := by
        simp only [endsPiece, List.contains_cons, Bool.or_eq_true, beq_iff_eq, decide_eq_true_eq, List.length_cons,
          Ne.symm other, false_or] at ended ⊢
        exact ended.imp id fun _ => by omega
      obtain ⟨front, last, rest, discarding, request, rfl, begun⟩ := ih (Nat.pos_of_ne_zero room) later
      refine ⟨octet :: front, last, rest, discarding, request, rfl, ?_⟩
      simp only [List.cons_append, receive, next, if_neg closes]
      exact begun

end Intake

/-! ### Replies -/

section

variable {m : Type → Type u} [Monad m] [LawfulMonad m]

/-- However a stream is cut into reads, its requests are seen to in order. -/
theorem foldlM_hear (see : PolicyRequest → m Unit) (i : Intake) (reads : List (List UInt8)) :
    reads.foldlM (Intake.hear see) i =
      (i.receive reads.flatten).2.forM see >>= fun _ => pure (i.receive reads.flatten).1 := by
  induction reads generalizing i with
  | nil => simp [Intake.receive]
  | cons octets reads ih =>
    rw [List.foldlM_cons, List.flatten_cons, Intake.receive_append, Intake.hear]
    simp only [List.forM_eq_forM, List.forM_append, bind_assoc, pure_bind, ih]

theorem attend_framed (judge : PolicyRequest → m PolicyAction) (send : String → m Unit) (reads : List (List UInt8)) :
    attend judge send reads = (framed reads.flatten).forM (answer judge send) := by
  rw [attend, foldlM_hear, ← Intake.receive_framed]
  simp

end

/-- Whatever the reason says, it stays on its line. -/
theorem oneLine_plain (reason : String) {c : Char} (member : c ∈ (PolicyAction.oneLine reason).toList) :
    isControl c = false := by
  rw [PolicyAction.oneLine, String.toList_ofList, List.mem_map] at member
  obtain ⟨raw, -, rfl⟩ := member
  split
  · rfl
  · next plain => exact Bool.eq_false_iff.mpr plain

/-- A reply is one line without control characters, and an empty one. -/
theorem render_line (action : PolicyAction) :
    ∃ text, action.render = "action=" ++ text ++ "\n\n" ∧ ∀ c ∈ text.toList, isControl c = false := by
  have words : ("DUNNO".toList ++ "HOLD ".toList).all (isControl · = false) = true := rfl
  have plain {c : Char} (member : c ∈ "DUNNO".toList ++ "HOLD ".toList) : isControl c = false :=
    of_decide_eq_true (List.all_eq_true.mp words c member)
  cases action with
  | dunno => exact ⟨"DUNNO", rfl, fun c member => plain (List.mem_append_left _ member)⟩
  | hold reason =>
    have action : "action=HOLD " = "action=" ++ "HOLD " := rfl
    refine ⟨"HOLD " ++ PolicyAction.oneLine reason, ?_, fun c member => ?_⟩
    · simp only [PolicyAction.render, action, String.append_assoc]
    · rw [String.toList_append, List.mem_append] at member
      exact member.elim (fun held => plain (List.mem_append_right _ held)) (oneLine_plain reason)

/-- The replies of a connection, whatever decides the requests and wherever the replies go. -/
theorem stream_answered {m : Type → Type u} [Monad m] [LawfulMonad m] (judge : PolicyRequest → m PolicyAction)
    (send : String → m Unit) (reads : List (List UInt8)) :
    -- Each request of the stream is decided and replied to before the next.
    (attend judge send reads = (framed reads.flatten).forM fun request => do
      let action ← judge request
      send action.render) ∧
    -- There are as many as empty lines.
    (framed reads.flatten).length = (texts reads.flatten).count [] ∧
    -- A reply is one line and an empty one.
    (∀ action : PolicyAction, ∃ text, action.render = "action=" ++ text ++ "\n\n" ∧
      ∀ c ∈ text.toList, isControl c = false) ∧
    -- A line that is too long might as well not have been sent.
    ∀ front line rest, reads.flatten = front ++ (line ++ newline :: rest) → AtLineStart front → newline ∉ line →
      maxLineOctets < (line ++ [newline]).length → attend judge send reads = attend judge send [front ++ rest] := by
  refine ⟨attend_framed judge send reads, ?_, render_line, fun front line rest sent start plain long => ?_⟩
  · rw [framed_eq, length_closed]
  · have unfit : ¬ fits line = true := by
      simp only [fits, decide_eq_true_eq]
      simpa using long
    have same : texts reads.flatten = texts (front ++ rest) := by rw [sent, texts_overlong start plain unfit]
    rw [attend_framed, attend_framed, List.flatten_singleton, framed, framed, same]

/-- The first read ends within a line of 5000 octets. -/
theorem stream_answered_overlong :
    let judge : PolicyRequest → StateM String PolicyAction := fun request =>
      pure (.hold ("later:\n" ++ request.recipient?.getD "anyone"))
    let send : String → StateM String Unit := fun reply => modify (· ++ reply)
    let front := "recipient=a@b\n".toList.map fun c => UInt8.ofNat c.toNat
    ((attend judge send [front ++ .replicate 3000 97, .replicate 2000 97 ++ [newline, newline, 97]]).run "").2 =
      "action=HOLD later: a@b\n\n" := by
  intro judge send front
  have replied : ((attend judge send [front ++ [newline, 97]]).run "").2 = "action=HOLD later: a@b\n\n" := by
    decide +kernel +revert
  have joined (begun more : Nat) :
      [front ++ .replicate begun 97, .replicate more 97 ++ [newline, newline, 97]].flatten =
        front ++ (.replicate (begun + more) 97 ++ newline :: [newline, 97]) := by
    simp [← List.replicate_append_replicate]
  have plain (n : Nat) : newline ∉ List.replicate n 97 := fun member =>
    absurd (List.eq_of_mem_replicate member) (by decide)
  have long : maxLineOctets < (List.replicate (3000 + 2000) 97 ++ [newline]).length := by
    rw [List.length_append, List.length_replicate]
    decide
  have start : AtLineStart front := .inr ⟨front.dropLast, rfl⟩
  have cut := (stream_answered judge send _).2.2.2 front _ _ (joined 3000 2000) start (plain _) long
  exact (congrArg (fun run => (run.run "").2) cut).trans replied

end RelayRamp.Policy
