import SolidWorkshop.Proofs.Compile.Schedule

/-!
# Delivery of messages

In every schedule of a channel the consumer gets the lines that the compile logs, each once and in
their order, and the last message after them, if there is one; if there is none it finds that the
worker ended without a word.  A message is at every time in one of four places: with the consumer,
in the getter's hands, in the outbox, or still to be put there.
-/

namespace SolidWorkshop.Compile

open Relation

/-! ## What is to be heard -/

/-- The line that is logged. -/
def Act.line? : Act → Option LogLine
  | .log line => some line
  | _ => none

namespace Behaviour

/-- The lines that a compile logs. -/
def lines (b : Behaviour) : List LogLine :=
  b.acts.filterMap Act.line?

/-- What a consumer gets of a compile, and what it is about at the end. -/
inductive Tells (b : Behaviour) : List Reply → Channel.Consumer → Prop
  | artifact {artifact : Artifact} (h : b.outcome = .ok artifact) :
    Tells b (b.lines.map .log ++
      [.result artifact.content artifact.exitCode artifact.elapsed]) .content
  | failure {failure : Failure} {message : String} {status : Int}
    (h : b.outcome = .error failure)
    (hreply : failureReply? failure = some (.error message status)) :
    Tells b (b.lines.map .log ++ [.error message status]) .content
  | death {failure : Failure} (h : b.outcome = .error failure) (harea : failure.area = .cancelled) :
    Tells b (b.lines.map .log) .deserted

theorem logged_eq_map (acts : List Act) :
    logged acts = (acts.filterMap Act.line?).map .log := by
  induction acts with
  | nil => rfl
  | cons act acts ih =>
    cases act with
    | log line => exact congrArg (List.cons _) ih
    | pause => exact ih
    | hold => exact ih

theorem messages_eq (b : Behaviour) :
    b.messages = b.lines.map .log ++ b.outcome.reply?.toList := by
  rw [messages, logged_eq_map, lines]

theorem Tells.eq_messages
    {b : Behaviour} {delivered : List Reply} {consumer : Channel.Consumer}
    (h : b.Tells delivered consumer) :
    delivered = b.messages := by
  rw [messages_eq]
  cases h with
  | artifact houtcome =>
    rw [houtcome]
    rfl
  | failure houtcome hreply =>
    rw [houtcome, Ended.reply?, hreply]
    rfl
  | death houtcome harea =>
    rw [houtcome, Ended.reply?, failureReply?, harea]
    exact (List.append_nil _).symm

theorem failureReply?_cases (failure : Failure) :
    failureReply? failure = none ∧ failure.area = .cancelled ∨
      ∃ message status, failureReply? failure = some (.error message status) := by
  unfold failureReply?
  split
  · next harea => exact Or.inl ⟨rfl, harea⟩
  · exact Or.inr ⟨_, _, rfl⟩
  · exact Or.inr ⟨_, _, rfl⟩

theorem tells_content
    {b : Behaviour} {reply : Reply} (h : b.outcome.reply? = some reply) :
    b.Tells b.messages .content := by
  rw [messages_eq]
  cases houtcome : b.outcome with
  | ok artifact => exact .artifact houtcome
  | error failure =>
    rw [houtcome] at h
    rcases failureReply?_cases failure with ⟨hnone, -⟩ | ⟨message, status, hsome⟩
    · rw [Ended.reply?, hnone] at h
      contradiction
    · rw [Ended.reply?, hsome]
      exact .failure houtcome hsome

theorem tells_deserted
    {b : Behaviour} (h : b.outcome.reply? = none) :
    b.Tells b.messages .deserted := by
  rw [messages_eq, h]
  cases houtcome : b.outcome with
  | ok artifact =>
    rw [houtcome] at h
    contradiction
  | error failure =>
    rw [houtcome] at h
    rcases failureReply?_cases failure with ⟨-, harea⟩ | ⟨message, status, hsome⟩
    · rw [Option.toList_none, List.append_nil]
      exact .death houtcome harea
    · rw [Ended.reply?, hsome] at h
      contradiction

theorem isTerminal_of_reply?
    {outcome : Ended} {reply : Reply} (h : outcome.reply? = some reply) :
    reply.isTerminal = true := by
  cases outcome with
  | ok artifact =>
    obtain rfl := Option.some.inj h
    rfl
  | error failure =>
    rcases failureReply?_cases failure with ⟨hnone, -⟩ | ⟨message, status, hsome⟩
    · rw [Ended.reply?, hnone] at h
      contradiction
    · rw [Ended.reply?, hsome] at h
      obtain rfl := Option.some.inj h
      rfl

/-- Of all messages only the last one can be a last message. -/
theorem eq_nil_of_isTerminal
    {b : Behaviour} {delivered rest : List Reply} (h : delivered ++ rest = b.messages)
    (hlast : delivered.getLast?.any Reply.isTerminal = true) :
    rest = [] ∧ ∃ reply, b.outcome.reply? = some reply := by
  obtain ⟨last, hgetLast, hterminal⟩ := (Option.any_eq_true _ _).mp hlast
  obtain ⟨before, rfl⟩ := List.getLast?_eq_some_iff.mp hgetLast
  have hline : last ∉ b.lines.map Reply.log := by
    intro hmem
    obtain ⟨line, -, rfl⟩ := List.mem_map.mp hmem
    contradiction
  rw [messages_eq] at h
  cases hreply : b.outcome.reply? with
  | none =>
    rw [hreply, Option.toList_none, List.append_nil] at h
    rw [← h] at hline
    exact absurd (by simp) hline
  | some reply =>
    refine ⟨?_, reply, rfl⟩
    rw [hreply, Option.toList_some] at h
    rcases List.eq_nil_or_concat rest with hnil | ⟨rest', final, hconcat⟩
    · exact hnil
    · rw [hconcat, List.concat_eq_append, ← List.append_assoc] at h
      have hlines := List.append_inj_left' h rfl
      rw [← hlines] at hline
      exact absurd (by simp) hline

/-- All messages are got, and none of them is a last message: there is none. -/
theorem reply?_eq_none_of_not_isTerminal
    {b : Behaviour} (hlast : b.messages.getLast?.any Reply.isTerminal = false) :
    b.outcome.reply? = none := by
  cases hreply : b.outcome.reply? with
  | none => rfl
  | some reply =>
    rw [messages_eq, hreply, Option.toList_some, List.getLast?_append,
      List.getLast?_singleton] at hlast
    rw [Option.some_or, Option.any_some, isTerminal_of_reply? hreply] at hlast
    contradiction

end Behaviour

namespace Channel.State

/-! ## Where the messages are -/

/-- The messages that the worker has still to put into the outbox. -/
def pending (s : State) : List Reply :=
  if s.worker = .ended then [] else s.rest.messages

/-- Every message of the compile is in its place, those ahead still to be put into the outbox, and a
consumer that has its end behind it has got all of them. -/
structure Keeps (b : Behaviour) (s : State) (ahead : List Reply) : Prop where
  patience : s.patience = none
  outcome : s.rest.outcome = b.outcome
  messages : s.delivered ++ s.getter.carried ++ s.outbox ++ ahead = b.messages
  settled : s.IsSettled → b.Tells s.delivered s.consumer

section Keeps

variable {b : Behaviour} {s t : State} {ahead : List Reply}

/-- What is ahead is the same as long as the worker does nothing. -/
theorem Keeps.of_pending
    (h : t.Keeps b s.pending) (hworker : t.worker = s.worker) (hrest : t.rest = s.rest) :
    t.Keeps b t.pending := by
  rw [pending, hworker, hrest]
  exact h

theorem keeps_start (b : Behaviour) : (start b).Keeps b (start b).pending where
  patience := rfl
  outcome := rfl
  messages := rfl
  settled h := by
    rcases h with h | h
    · contradiction
    · contradiction

theorem Keeps.put
    {message : Reply} (h : s.Keeps b (message :: ahead)) :
    (s.put message).Keeps b ahead := by
  have hmessages := h.messages
  rcases put_cases s message with ⟨hgetter, hput⟩ | ⟨-, hput⟩
  · rw [hput]
    refine { h with messages := ?_ }
    rw [hgetter] at hmessages
    rw [← hmessages]
    simp [Getter.carried]
  · rw [hput]
    refine { h with messages := ?_ }
    rw [← hmessages]
    simp

/-- The worker works: what it logs goes from ahead into the outbox. -/
theorem Keeps.workOn
    (acts : List Act) (hready : s.worker = .ready)
    (h : s.Keeps b (Behaviour.logged acts ++ b.outcome.reply?.toList)) :
    (s.workOn acts).Keeps b (s.workOn acts).pending := by
  induction acts generalizing s with
  | nil =>
    have hstart : Keeps b { s with rest := { s.rest with acts := [] } }
        (Behaviour.logged [] ++ b.outcome.reply?.toList) := { h with }
    cases hreply : b.outcome.reply? with
    | none =>
      rw [workOn_nil_of_none (by rw [h.outcome, hreply])]
      rw [hreply] at hstart
      exact { hstart with }
    | some message =>
      rw [workOn_nil_of_some (by rw [h.outcome, hreply])]
      rw [hreply] at hstart
      exact { hstart.put with }
  | cons act acts ih =>
    cases act with
    | log line =>
      have hready' : (s.put (.log line)).worker = .ready := by
        rcases put_cases s (.log line) with ⟨-, hput⟩ | ⟨-, hput⟩
        · rw [hput, ← hready]
        · rw [hput, ← hready]
      exact ih hready' h.put
    | pause =>
      have hpending : (s.workOn (.pause :: acts)).pending =
          Behaviour.logged acts ++ b.outcome.reply?.toList := by
        rw [← h.outcome, pending, if_neg]
        · rfl
        · change s.worker ≠ .ended
          rw [hready]
          decide
      rw [hpending]
      exact { h with }
    | hold =>
      have hpending : (s.workOn (.hold :: acts)).pending =
          Behaviour.logged acts ++ b.outcome.reply?.toList := by
        rw [← h.outcome]
        rfl
      rw [hpending]
      exact { h with }

theorem Keeps.leave
    (h : s.Keeps b ahead) (hgetter : s.getter.carried = []) (hcontent : s.isContent = true) :
    s.leave.Keeps b s.leave.pending := by
  have hlast : s.delivered.getLast?.any Reply.isTerminal = true := by
    unfold isContent at hcontent
    rw [h.patience] at hcontent
    simpa using hcontent
  have hmessages := h.messages
  rw [hgetter, List.append_nil, List.append_assoc] at hmessages
  obtain ⟨hnil, reply, hreply⟩ := Behaviour.eq_nil_of_isTerminal hmessages hlast
  rw [hnil, List.append_nil] at hmessages
  obtain ⟨houtbox, -⟩ := List.append_eq_nil_iff.mp hnil
  obtain ⟨isStopped, hleave⟩ := s.exists_leave_eq
  rw [hleave]
  refine ⟨h.patience, h.outcome, ?_, ?_⟩
  · dsimp only [Getter.carried, pending]
    rw [houtbox, List.append_nil, List.append_nil, hmessages]
    exact List.append_nil _
  · intro _
    dsimp only
    rw [hmessages]
    exact Behaviour.tells_content hreply

/-- Nothing is left anywhere, and what was got last is not a last message: there is none. -/
theorem Keeps.reply?_eq_none
    (h : s.Keeps b []) (hgetter : s.getter.carried = []) (houtbox : s.outbox = [])
    (hcontent : s.isContent = false) :
    s.delivered = b.messages ∧ b.outcome.reply? = none := by
  have hmessages := h.messages
  rw [hgetter, houtbox, List.append_nil, List.append_nil, List.append_nil] at hmessages
  refine ⟨hmessages, Behaviour.reply?_eq_none_of_not_isTerminal ?_⟩
  unfold isContent at hcontent
  rw [h.patience, hmessages] at hcontent
  simpa using hcontent

/-- The consumer gets the message that comes next, or has got all of them and has its end. -/
theorem Keeps.resume
    (h : s.Keeps b s.pending) (hready : s.consumer = .ready) :
    s.resume.Keeps b s.resume.pending := by
  have hopen : ¬s.IsSettled := by
    unfold IsSettled
    rw [hready]
    rintro (hcontent | hdeserted)
    · contradiction
    · contradiction
  have hmessages := h.messages
  rcases s.resume_cases with ⟨message, hgetter, hresume⟩ | ⟨hgetter, ⟨hcontent, hresume⟩ |
    ⟨message, outbox, houtbox, hresume⟩ | ⟨hcontent, houtbox, hended, hresume⟩ |
    ⟨houtbox, hended, hresume⟩⟩
  · rw [hresume]
    refine Keeps.of_pending (s := s) ?_ rfl rfl
    refine { h with messages := ?_, settled := fun hsettled => absurd hsettled hopen }
    rw [← hmessages, hgetter]
    simp [plan, Getter.carried]
  · have habsent : Keeps b { s with getter := .absent } s.pending := by
      refine { h with messages := ?_ }
      rw [← hmessages, hgetter]
      rfl
    rw [hresume]
    exact habsent.leave rfl hcontent
  · rw [hresume]
    refine Keeps.of_pending (s := s) ?_ rfl rfl
    refine { h with messages := ?_, settled := fun hsettled => absurd hsettled hopen }
    rw [← hmessages, hgetter, houtbox]
    simp [plan, Getter.carried]
  · have hpending : s.pending = [] := if_pos hended
    have hnone : s.Keeps b [] := by
      rw [← hpending]
      exact h
    obtain ⟨hdelivered, hreply⟩ := hnone.reply?_eq_none hgetter houtbox hcontent
    rw [hresume]
    refine Keeps.of_pending (s := s) ?_ rfl rfl
    refine { h with messages := ?_, settled := fun _ => ?_ }
    · rw [← hmessages, hgetter]
      rfl
    · dsimp only
      rw [hdelivered]
      exact Behaviour.tells_deserted hreply
  · rw [hresume]
    refine Keeps.of_pending (s := s) ?_ rfl rfl
    refine { h with messages := ?_, settled := ?_ }
    · rw [← hmessages, hgetter]
      rfl
    · rintro (hsettled | hsettled)
      · contradiction
      · contradiction

theorem Keeps.look
    (h : s.Keeps b s.pending) :
    s.look.Keeps b s.look.pending := by
  have hmessages := h.messages
  unfold State.look
  split
  · next message outbox hgetter houtbox =>
    refine Keeps.of_pending (s := s) ?_ rfl rfl
    refine { h with messages := ?_ }
    rw [← hmessages, hgetter, houtbox]
    simp [plan, Getter.carried]
  · next hgetter houtbox =>
    refine Keeps.of_pending (s := s) ?_ rfl rfl
    refine { h with messages := ?_ }
    rw [hgetter] at hmessages
    exact hmessages
  · exact h

theorem Keeps.tell
    (h : s.Keeps b s.pending) :
    s.tell.Keeps b s.tell.pending := by
  unfold State.tell
  split
  · refine { h with settled := ?_ }
    rintro (hsettled | hsettled)
    · contradiction
    · contradiction
  · exact h

theorem Keeps.undertake
    (h : s.Keeps b s.pending) (event : Event) :
    (s.undertake event).Keeps b (s.undertake event).pending := by
  cases event with
  | work =>
    unfold State.undertake perform
    dsimp only
    split_ifs with hready
    · refine Keeps.workOn s.rest.acts hready ?_
      have hpending : s.pending =
          Behaviour.logged s.rest.acts ++ b.outcome.reply?.toList := by
        rw [← h.outcome, pending, if_neg (by rw [hready]; decide)]
        rfl
      rw [← hpending]
      exact h
    · exact h
  | look => exact h.look
  | tell => exact h.tell
  | wake =>
    unfold State.undertake
    dsimp only
    split_ifs with hready
    · exact h.resume hready
    · exact h

/-- No step loses a message, doubles one, or changes their order. -/
theorem Keeps.step
    (h : s.Keeps b s.pending) (hstep : Step s t) :
    t.Keeps b t.pending := by
  cases hstep with
  | @turn before after event _ =>
    have hrest : Keeps b { s with agenda := before ++ after } s.pending := { h with }
    exact hrest.undertake event
  | release hheld =>
    have hpending : State.pending ({ s with worker := .ready }.plan .work) = s.pending := by
      unfold pending
      rw [hheld]
      rfl
    rw [hpending]
    exact { h with }

theorem workOn_consumer
    (acts : List Act) (s : State) :
    (s.workOn acts).consumer = s.consumer ∧ (s.workOn acts).delivered = s.delivered := by
  have hput : ∀ (s : State) (message : Reply),
      (s.put message).consumer = s.consumer ∧ (s.put message).delivered = s.delivered := by
    intro s message
    rcases put_cases s message with ⟨-, hput⟩ | ⟨-, hput⟩
    · rw [hput]
      exact ⟨rfl, rfl⟩
    · rw [hput]
      exact ⟨rfl, rfl⟩
  induction acts generalizing s with
  | nil =>
    cases hreply : s.rest.outcome.reply? with
    | none =>
      rw [workOn_nil_of_none hreply]
      exact ⟨rfl, rfl⟩
    | some message =>
      rw [workOn_nil_of_some hreply]
      exact hput _ message
  | cons act acts ih =>
    cases act with
    | log line =>
      obtain ⟨hconsumer, hdelivered⟩ := ih (s.put (.log line))
      obtain ⟨hconsumer', hdelivered'⟩ := hput s (.log line)
      exact ⟨hconsumer.trans hconsumer', hdelivered.trans hdelivered'⟩
    | pause => exact ⟨rfl, rfl⟩
    | hold => exact ⟨rfl, rfl⟩

/-- A consumer that has its end behind it gets nothing more. -/
theorem IsSettled.step
    (h : s.IsSettled) (hstep : Step s t) :
    t.consumer = s.consumer ∧ t.delivered = s.delivered := by
  cases hstep with
  | @turn before after event _ =>
    cases event with
    | work =>
      unfold undertake perform
      dsimp only
      split_ifs
      · exact workOn_consumer _ _
      · exact ⟨rfl, rfl⟩
    | look =>
      unfold undertake perform look
      dsimp only
      split
      · exact ⟨rfl, rfl⟩
      · exact ⟨rfl, rfl⟩
      · exact ⟨rfl, rfl⟩
    | tell =>
      unfold undertake perform tell
      dsimp only
      split
      · next hwaiting =>
        rcases h with hcontent | hdeserted
        · exact absurd (hwaiting.symm.trans hcontent) nofun
        · exact absurd (hwaiting.symm.trans hdeserted) nofun
      · exact ⟨rfl, rfl⟩
    | wake =>
      unfold undertake
      dsimp only
      split_ifs with hready
      · rcases h with hcontent | hdeserted
        · exact absurd (hready.symm.trans hcontent) nofun
        · exact absurd (hready.symm.trans hdeserted) nofun
      · exact ⟨rfl, rfl⟩
  | release _ => exact ⟨rfl, rfl⟩

theorem keeps_of_run
    (hrun : Run (start b) s) :
    s.Keeps b s.pending := by
  induction hrun with
  | refl => exact keeps_start b
  | tail _ hstep ih => exact ih.step hstep

end Keeps

end Channel.State

end SolidWorkshop.Compile
