import Mathlib.Data.List.Chain
import SolidWorkshop.Compile.Compiler
import SolidWorkshop.Proofs.Compile.Delivery

/-!
# Relayed messages

A compile is worked on in stretches, and who listens to it hears what they put out.  The stretches
relay what the consumer of a channel gets, however they cut it into pieces: lines of the log, and
the last message or the end without one with the last of them.
-/

namespace SolidWorkshop.Compile

/-- Stretches of work, one after another, put out what the consumer of a channel gets, and the last
of them ends with what the consumer is about then. -/
inductive Relays {σ π : Type} : List (Stretch σ π) → List Reply → Channel.Consumer → Prop
  | ends (shared : σ) (lines : List LogLine) {reply : Reply} (hlast : reply.isTerminal = true) :
    Relays [⟨shared, lines.map .log ++ [reply], .over⟩] (lines.map .log ++ [reply]) .content
  | deserted (shared : σ) (lines : List LogLine) :
    Relays [⟨shared, lines.map .log, .deserted⟩] (lines.map .log) .deserted
  | waits (shared : σ) (lines : List LogLine) (work : π) {rest : List (Stretch σ π)}
    {later : List Reply} {consumer : Channel.Consumer} (h : Relays rest later consumer) :
    Relays (⟨shared, lines.map .log, .waits work⟩ :: rest) (lines.map .log ++ later) consumer

namespace Behaviour

variable {b : Behaviour} {delivered delivered' : List Reply}
  {consumer consumer' : Channel.Consumer}

/-- What the consumer of a channel is about when the compile is over. -/
def finalConsumer (b : Behaviour) : Channel.Consumer :=
  if b.outcome.reply?.isSome then .content else .deserted

end Behaviour

/-! ## Scripts -/

/-- The acts up to the first wait log some lines; those behind it are fewer, and log the others. -/
theorem untilHold_cases (acts : List Act) :
    ∃ lines : List LogLine,
      untilHold acts = (lines.map .log, none) ∧ acts.filterMap Act.line? = lines ∨
      ∃ rest, untilHold acts = (lines.map .log, some rest) ∧ rest.length < acts.length ∧
        acts.filterMap Act.line? = lines ++ rest.filterMap Act.line? := by
  induction acts with
  | nil => exact ⟨[], Or.inl ⟨rfl, rfl⟩⟩
  | cons act acts ih =>
    obtain ⟨lines, ih⟩ := ih
    cases act with
    | log line =>
      refine ⟨line :: lines, ?_⟩
      rcases ih with ⟨hhold, hlines⟩ | ⟨rest, hhold, hlength, hlines⟩
      · exact Or.inl ⟨by rw [untilHold, hhold]; rfl, congrArg (List.cons line) hlines⟩
      · exact Or.inr ⟨rest, by rw [untilHold, hhold]; rfl, Nat.lt_succ_of_lt hlength,
          congrArg (List.cons line) hlines⟩
    | pause =>
      refine ⟨lines, ih.imp id ?_⟩
      rintro ⟨rest, hhold, hlength, hlines⟩
      exact ⟨rest, hhold, Nat.lt_succ_of_lt hlength, hlines⟩
    | hold => exact ⟨[], Or.inr ⟨acts, rfl, Nat.lt_succ_self _, rfl⟩⟩

/-- A script that is let go wherever it waits relays every behaviour. -/
theorem Script.exists_relays (s : Script) (call : Nat) (b : Behaviour) :
    ∃ later, Relays (s.work call b :: later) b.messages b.finalConsumer ∧
      (s.work call b :: later).IsChain fun first next =>
        ∃ u, first.next = .waits u ∧ next = s.work u.call u.rest := by
  obtain ⟨lines, ⟨hhold, hlines⟩ | ⟨rest, hhold, hlength, hlines⟩⟩ := untilHold_cases b.acts
  · refine ⟨[], ?_, .singleton _⟩
    rw [Behaviour.messages_eq, Behaviour.lines, hlines, Behaviour.finalConsumer, Script.work, hhold]
    cases hreply : b.outcome.reply? with
    | some reply => exact .ends s lines (Behaviour.isTerminal_of_reply? hreply)
    | none =>
      rw [Option.toList_none, List.append_nil]
      exact .deserted s lines
  · obtain ⟨later, hrelays, hchain⟩ := exists_relays s call { b with acts := rest }
    have hwork : s.work call b =
        ⟨s, lines.map .log, .waits ⟨call, { b with acts := rest }, true⟩⟩ := by
      rw [Script.work, hhold]
    have hmessages : b.messages = lines.map .log ++ Behaviour.messages { b with acts := rest } := by
      rw [Behaviour.messages_eq, Behaviour.messages_eq, Behaviour.lines, hlines, List.map_append,
        List.append_assoc]
      rfl
    refine ⟨s.work call { b with acts := rest } :: later, ?_, ?_⟩
    · rw [hwork, hmessages]
      exact .waits s lines _ hrelays
    · exact .cons_cons ⟨_, by rw [hwork], rfl⟩ hchain
  termination_by b.acts.length

end SolidWorkshop.Compile
