import SolidWorkshop.Proofs.Compile.Schedule

/-!
# Progress of a channel

In every schedule there is an event on the agenda for whoever is to go on.  Where the agenda is
empty, the consumer has its end behind it or the worker waits to be let go.
-/

namespace SolidWorkshop.Compile

namespace Channel.State

/-- For a consumer and its getter there is an event on the agenda wherever one of them is to go
on. -/
structure Alert (s : State) : Prop where
  tell : s.consumer = .waiting → s.worker = .ended ∨ s.getter.carried ≠ [] → .tell ∈ s.agenda
  wake : s.consumer = .ready → .wake ∈ s.agenda
  look : s.consumer = .waiting → s.getter = .ready → .look ∈ s.agenda
  listen : s.consumer = .waiting → s.getter = .listening → s.outbox = []
  present : s.consumer = .waiting → s.getter ≠ .absent

/-- A worker with a turn is on the agenda. -/
def HasTurn (s : State) : Prop :=
  s.worker = .ready → .work ∈ s.agenda

section Alert

variable {s t : State} {agenda : List Event}

theorem mem_of_mem_split
    {before after : List Event} {event other : Event}
    (h : other ∈ before ++ event :: after) (hne : other ≠ event) :
    other ∈ before ++ after := by
  rcases List.mem_append.mp h with h | h
  · exact List.mem_append_left after h
  · exact List.mem_append_right before ((List.mem_cons.mp h).resolve_left hne)

theorem mem_plan (s : State) (event : Event) : event ∈ (s.plan event).agenda := by
  simp [plan]

theorem mem_plan_of_mem
    {event other : Event} (h : event ∈ s.agenda) :
    event ∈ (s.plan other).agenda :=
  List.mem_append_left _ h

theorem Alert.plan
    (h : s.Alert) (event : Event) :
    (s.plan event).Alert where
  tell hwaiting hdone := mem_plan_of_mem (h.tell hwaiting hdone)
  wake hready := mem_plan_of_mem (h.wake hready)
  look hwaiting hgetter := mem_plan_of_mem (h.look hwaiting hgetter)
  listen := h.listen
  present := h.present

theorem Alert.put
    (h : s.Alert) (message : Reply) :
    (s.put message).Alert := by
  rcases put_cases s message with ⟨hgetter, hput⟩ | ⟨hgetter, hput⟩
  · rw [hput]
    have hcarried : s.getter.carried = [] := by
      rw [hgetter]
      rfl
    refine ⟨?_, ?_, ?_, ?_, ?_⟩
    · intro hwaiting hdone
      apply mem_plan_of_mem (h.tell hwaiting ?_)
      rw [hcarried]
      exact hdone
    · exact fun hready => mem_plan_of_mem (h.wake hready)
    · exact fun _ _ => mem_plan s .look
    · exact fun _ hlistening => by contradiction
    · exact fun _ => nofun
  · rw [hput]
    exact { h with listen := fun _ hlistening => absurd hlistening hgetter }

theorem Alert.workOn
    (h : s.Alert) (acts : List Act) :
    (s.workOn acts).Alert := by
  induction acts generalizing s with
  | nil =>
    have hends : ∀ t : State, t.Alert → t.endWorker.Alert := by
      intro t ht
      exact {
        tell := fun _ _ => mem_plan _ .tell
        wake := fun hready => mem_plan_of_mem (ht.wake hready)
        look := fun hwaiting hgetter => mem_plan_of_mem (ht.look hwaiting hgetter)
        listen := ht.listen
        present := ht.present }
    have hstart : Alert { s with rest := { s.rest with acts := [] } } := { h with }
    cases hreply : s.rest.outcome.reply? with
    | none =>
      rw [workOn_nil_of_none hreply]
      exact hends _ { hstart with }
    | some message =>
      rw [workOn_nil_of_some hreply]
      exact hends _ (hstart.put message)
  | cons act acts ih =>
    cases act with
    | log line => exact ih (h.put (.log line))
    | pause =>
      have hstart : Alert { s with rest := { s.rest with acts } } := { h with }
      exact hstart.plan .work
    | hold =>
      refine { h with tell := ?_ }
      rintro hwaiting (hended | hcarried)
      · contradiction
      · exact h.tell hwaiting (Or.inr hcarried)

theorem alert_of_not_waiting
    (hnot : s.consumer ≠ .waiting) (hwake : s.consumer = .ready → .wake ∈ s.agenda) :
    s.Alert where
  tell hwaiting := absurd hwaiting hnot
  wake := hwake
  look hwaiting := absurd hwaiting hnot
  listen hwaiting := absurd hwaiting hnot
  present hwaiting := absurd hwaiting hnot

theorem alert_resume
    (hready : s.consumer = .ready) :
    s.resume.Alert := by
  have hnot : s.consumer ≠ .waiting := by
    rw [hready]
    decide
  rcases s.resume_cases with ⟨message, -, hresume⟩ | ⟨-, ⟨-, hresume⟩ |
    ⟨message, outbox, -, hresume⟩ | ⟨-, -, -, hresume⟩ | ⟨-, hended, hresume⟩⟩
  · rw [hresume]
    exact alert_of_not_waiting hnot fun _ => mem_plan _ .wake
  · obtain ⟨isStopped, hleave⟩ := exists_leave_eq { s with getter := .absent }
    rw [hresume, hleave]
    exact alert_of_not_waiting nofun nofun
  · rw [hresume]
    exact alert_of_not_waiting hnot fun _ => mem_plan _ .wake
  · rw [hresume]
    exact alert_of_not_waiting nofun nofun
  · rw [hresume]
    refine ⟨?_, nofun, fun _ _ => mem_plan _ .look, fun _ => nofun, fun _ => nofun⟩
    rintro - (hended' | hcarried)
    · exact absurd hended' hended
    · exact absurd rfl hcarried

theorem Alert.work_of_kept
    (h : s.Alert) (hkept : ∀ other, other ≠ .work → other ∈ s.agenda → other ∈ agenda) :
    ({ s with agenda }.undertake .work).Alert := by
  have hrest : Alert { s with agenda } := {
    tell := fun hwaiting hdone => hkept _ nofun (h.tell hwaiting hdone)
    wake := fun hready => hkept _ nofun (h.wake hready)
    look := fun hwaiting hgetter => hkept _ nofun (h.look hwaiting hgetter)
    listen := h.listen
    present := h.present }
  unfold State.undertake perform
  dsimp only
  split_ifs
  · exact hrest.workOn s.rest.acts
  · exact hrest

/-- A getter that had its turn holds a message and says so, or listens at an empty outbox. -/
theorem Alert.look_of_kept
    (h : s.Alert) (hkept : ∀ other, other ≠ .look → other ∈ s.agenda → other ∈ agenda) :
    ({ s with agenda }.undertake .look).Alert := by
  unfold State.undertake perform State.look
  dsimp only
  split
  · exact {
      tell := fun _ _ => mem_plan _ .tell
      wake := fun hready => mem_plan_of_mem (hkept _ nofun (h.wake hready))
      look := fun _ hgetter => by contradiction
      listen := fun _ hgetter => by contradiction
      present := fun _ => nofun }
  · next hgetter houtbox =>
    exact {
      tell := fun hwaiting hdone => hkept _ nofun <| h.tell hwaiting <| by
        rw [hgetter]
        exact hdone
      wake := fun hready => hkept _ nofun (h.wake hready)
      look := fun _ hgetter => by contradiction
      listen := fun _ _ => houtbox
      present := fun _ => nofun }
  · next hnot hnot' =>
    refine {
      tell := fun hwaiting hdone => hkept _ nofun (h.tell hwaiting hdone)
      wake := fun hready => hkept _ nofun (h.wake hready)
      look := ?_
      listen := h.listen
      present := h.present }
    intro _ hgetter
    cases houtbox : s.outbox with
    | nil => exact absurd houtbox (hnot' hgetter)
    | cons message outbox => exact absurd houtbox (hnot message outbox hgetter)

/-- A consumer that waits is told, and takes up its work then. -/
theorem Alert.tell_of_kept
    (h : s.Alert) (hkept : ∀ other, other ≠ .tell → other ∈ s.agenda → other ∈ agenda) :
    ({ s with agenda }.undertake .tell).Alert := by
  unfold State.undertake perform State.tell
  dsimp only
  split
  · exact alert_of_not_waiting nofun fun _ => mem_plan _ .wake
  · next hnot => exact alert_of_not_waiting hnot fun hready => hkept _ nofun (h.wake hready)

theorem Alert.wake_of_kept
    (h : s.Alert) (hkept : ∀ other, other ≠ .wake → other ∈ s.agenda → other ∈ agenda) :
    ({ s with agenda }.undertake .wake).Alert := by
  unfold State.undertake
  dsimp only
  split_ifs with hready
  · exact alert_resume hready
  · exact {
      tell := fun hwaiting hdone => hkept _ nofun (h.tell hwaiting hdone)
      wake := fun hready' => absurd hready' hready
      look := fun hwaiting hgetter => hkept _ nofun (h.look hwaiting hgetter)
      listen := h.listen
      present := h.present }

/-- A turn is taken from anywhere on the agenda. -/
theorem Alert.undertake
    (h : s.Alert) {event : Event} {before after : List Event}
    (hagenda : s.agenda = before ++ event :: after) :
    ({ s with agenda := before ++ after }.undertake event).Alert := by
  have hkept : ∀ other, other ≠ event → other ∈ s.agenda → other ∈ before ++ after := by
    intro other hne hmem
    rw [hagenda] at hmem
    exact mem_of_mem_split hmem hne
  cases event with
  | work => exact h.work_of_kept hkept
  | look => exact h.look_of_kept hkept
  | tell => exact h.tell_of_kept hkept
  | wake => exact h.wake_of_kept hkept

theorem Alert.step
    (h : s.Alert) (hstep : Step s t) :
    t.Alert := by
  cases hstep with
  | turn hagenda => exact h.undertake hagenda
  | release hheld =>
    have hready : Alert { s with worker := .ready } := by
      refine { h with tell := ?_ }
      rintro hwaiting (hended | hcarried)
      · contradiction
      · exact h.tell hwaiting (Or.inr hcarried)
    exact hready.plan .work

theorem hasTurn_workOn
    (acts : List Act) (s : State) :
    (s.workOn acts).HasTurn := by
  induction acts generalizing s with
  | nil =>
    cases hreply : s.rest.outcome.reply? with
    | none =>
      rw [workOn_nil_of_none hreply]
      exact nofun
    | some message =>
      rw [workOn_nil_of_some hreply]
      exact nofun
  | cons act acts ih =>
    cases act with
    | log line => exact ih (s.put (.log line))
    | pause => exact fun _ => mem_plan _ .work
    | hold => exact nofun

theorem resume_worker
    (hready : s.resume.worker = .ready) :
    s.worker = .ready ∧ ∀ other ∈ s.agenda, other ∈ s.resume.agenda := by
  rcases s.resume_cases with ⟨message, -, hresume⟩ | ⟨-, ⟨-, hresume⟩ |
    ⟨message, outbox, -, hresume⟩ | ⟨-, -, -, hresume⟩ | ⟨-, -, hresume⟩⟩
  · rw [hresume] at hready ⊢
    exact ⟨hready, fun _ hmem => mem_plan_of_mem hmem⟩
  · obtain ⟨isStopped, hleave⟩ := exists_leave_eq { s with getter := .absent }
    rw [hresume, hleave] at hready
    contradiction
  · rw [hresume] at hready ⊢
    exact ⟨hready, fun _ hmem => mem_plan_of_mem hmem⟩
  · rw [hresume] at hready ⊢
    exact ⟨hready, fun _ hmem => hmem⟩
  · rw [hresume] at hready ⊢
    exact ⟨hready, fun _ hmem => mem_plan_of_mem hmem⟩

/-- Only a worker that works comes to have a turn, and nothing but its turn is taken from the
agenda. -/
theorem undertake_worker
    {event : Event} (hevent : event ≠ .work) (hready : (s.undertake event).worker = .ready) :
    s.worker = .ready ∧ ∀ other ∈ s.agenda, other ∈ (s.undertake event).agenda := by
  cases event with
  | work => contradiction
  | look =>
    unfold undertake perform look at hready ⊢
    dsimp only at hready ⊢
    split at hready
    · exact ⟨hready, fun _ hmem => mem_plan_of_mem hmem⟩
    · exact ⟨hready, fun _ hmem => hmem⟩
    · exact ⟨hready, fun _ hmem => hmem⟩
  | tell =>
    unfold undertake perform tell at hready ⊢
    dsimp only at hready ⊢
    split at hready
    · exact ⟨hready, fun _ hmem => mem_plan_of_mem hmem⟩
    · exact ⟨hready, fun _ hmem => hmem⟩
  | wake =>
    unfold undertake at hready ⊢
    dsimp only at hready ⊢
    split_ifs at hready ⊢
    · exact resume_worker hready
    · exact ⟨hready, fun _ hmem => hmem⟩

theorem HasTurn.step
    (h : s.HasTurn) (hstep : Step s t) :
    t.HasTurn := by
  cases hstep with
  | @turn before after event hagenda =>
    by_cases hevent : event = .work
    · rw [hevent]
      unfold undertake perform
      dsimp only
      split_ifs with hready
      · exact hasTurn_workOn _ _
      · exact fun hready' => absurd hready' hready
    · intro hready
      obtain ⟨hready', hkept⟩ := undertake_worker hevent hready
      apply hkept
      have hmem := h hready'
      rw [hagenda] at hmem
      exact mem_of_mem_split hmem fun heq => hevent heq.symm
  | release hheld => exact fun _ => mem_plan _ .work

/-- Nothing is left on the agenda: the consumer has its end behind it, or the worker waits. -/
theorem isSettled_of_agenda_nil
    (h : s.Alert) (hturn : s.HasTurn) (hagenda : s.agenda = []) (hheld : s.worker ≠ .held) :
    s.IsSettled := by
  have hnone : ∀ event, event ∉ s.agenda := by
    rw [hagenda]
    exact fun _ => List.not_mem_nil
  have hended : s.worker = .ended := by
    cases hworker : s.worker with
    | ready => exact absurd (hturn hworker) (hnone .work)
    | held => exact absurd hworker hheld
    | ended => rfl
  cases hconsumer : s.consumer with
  | waiting => exact absurd (h.tell hconsumer (Or.inl hended)) (hnone .tell)
  | ready => exact absurd (h.wake hconsumer) (hnone .wake)
  | content => exact Or.inl hconsumer
  | deserted => exact Or.inr hconsumer

end Alert

end Channel.State

end SolidWorkshop.Compile
