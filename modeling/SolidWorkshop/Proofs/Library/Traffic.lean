import Mathlib.Algebra.GroupWithZero.Nat
import SolidWorkshop.Proofs.Library.Transfer

/-!
# The traffic of a download

The files of a batch are downloaded at the same time: whatever the server answers, and in whatever
order, another file goes on or the same one does.  Only when all files of a batch are there, or
known to be missing, the next batch begins.
-/

namespace SolidWorkshop.Library

/-- How far the download of the files of a library has come. -/
structure Traffic where
  files : Files := []
  /-- How many entries of the list belong to batches that are over. -/
  done : Nat := 0
  /-- The files of the batch under way. -/
  current : List (Path × Transfer) := []
  /-- The batches that are still to begin. -/
  waiting : List (List Path)
  /-- What was sent and answered, in its order. -/
  log : List Event := []

/-- One thing that happens: to a file of the batch under way, or to the whole batch. -/
inductive Turn where
  | send (k : Nat)
  | receive (k : Nat)
  /-- The batch is over, and the next one begins. -/
  | gather

namespace Traffic

/-- Nothing was requested. -/
def opened (c : Config) (paths : List Path) : Traffic :=
  { waiting := batches c.batch paths.length paths }

/-- No batch is under way, and none is to begin. -/
def IsOver (t : Traffic) : Prop :=
  t.current = [] ∧ t.waiting = []

/-- The download of a file of the batch goes on. -/
def advance (t : Traffic) (k : Nat) (path : Path) (next : Transfer) (e : Event) : Traffic :=
  { t with current := t.current.set k (path, next), log := t.log ++ [e] }

/-- The results of the batch are put among the files, and the next batch begins. -/
def gather (c : Config) (client : Client) (t : Traffic) : Traffic :=
  { files := collect t.files
      (t.current.map fun (path, tr) => (path, tr.result?.bind Except.toOption))
    done := t.done + t.current.length
    current := (t.waiting.head?.getD []).map fun path => (path, Transfer.ofPath c client path)
    waiting := t.waiting.tail
    log := t.log }

/-- The traffic after a turn, which may find nothing to do. -/
def turn (c : Config) (client : Client) (server : Server) (t : Traffic) : Turn → Traffic
  | .send k =>
    match t.current[k]? with
    | some (path, .ready (.request address hear)) =>
      t.advance k path (.asked address hear) (.sent (t.done + k) address)
    | _ => t
  | .receive k =>
    match t.current[k]? with
    | some (path, .asked address hear) =>
      t.advance k path (.ready (hear (server.answer address))) (.answered (t.done + k) address)
    | _ => t
  | .gather => if t.current.all fun file => file.2.result?.isSome then t.gather c client else t

/-- The traffic after some turns. -/
def run (c : Config) (client : Client) (server : Server) (t : Traffic) (turns : List Turn) :
    Traffic :=
  turns.foldl (turn c client server) t

/-- What has happened for an entry. -/
def eventsOf (log : List Event) (entry : Nat) : List Event :=
  log.filter fun e => e.entry = entry

/-- All that is to happen for an entry: its file is requested once, and then whatever the answers
direct to. -/
def tripsOf (c : Config) (client : Client) (server : Server) (paths : List Path) (entry : Nat) :
    List Event :=
  (paths[entry]?).elim [] fun path => roundTrips entry (download c client server path).1

/-- All that turns can do. -/
inductive Step (c : Config) (client : Client) (server : Server) (t : Traffic) : Traffic → Prop
  | idle : Step c client server t t
  | move {k : Nat} {path : Path} {tr next : Transfer} {e : Event}
    (hk : t.current[k]? = some (path, tr)) (hmoves : tr.Moves server (t.done + k) e next) :
    Step c client server t (t.advance k path next e)
  | gather (hall : ∀ file ∈ t.current, file.2.result?.isSome = true) :
    Step c client server t (t.gather c client)

/-- What is promised of the traffic for a list of paths, and of the files that it ends with. -/
structure IsOrderly (c : Config) (client : Client) (server : Server) (paths : List Path)
    (files : Files) (t : Traffic) : Prop where
  /-- No more requests than a batch has entries wait for their answers. -/
  bounded : t.log.countP (·.isSent) ≤ t.log.countP (!·.isSent) + c.batch
  /-- Every entry is requested at most once, and nothing but the entries is. -/
  once : ∀ entry, eventsOf t.log entry <+: tripsOf c client server paths entry
  /-- Whatever was sent, the entries of the earlier batches were done with. -/
  batchwise : ∀ before entry address after, t.log = before ++ .sent entry address :: after →
    ∀ earlier, earlier / c.batch < entry / c.batch →
      eventsOf before earlier = tripsOf c client server paths earlier
  /-- In the end every entry was requested, and the requests are those of a resolution. -/
  complete : t.IsOver →
    (∀ entry, eventsOf t.log entry = tripsOf c client server paths entry) ∧
      (t.log.filterMap Event.request?).Perm
        (paths.flatMap fun path => (download c client server path).1) ∧
      t.files = files
  ends : ∃ later, (t.run c client server later).IsOver

/-- The list of paths is cut: behind the batches that are over stands the one under way, and
behind that one stand those that are still to begin. -/
structure IsCut (c : Config) (paths : List Path) (t : Traffic) : Prop where
  aligned : t.current ≠ [] → c.batch ∣ t.done
  width : t.current.length ≤ c.batch
  full : t.waiting ≠ [] → c.batch ∣ t.done + t.current.length
  cut : ∃ fuel, (paths.drop (t.done + t.current.length)).length ≤ fuel ∧
    t.waiting = batches c.batch fuel (paths.drop (t.done + t.current.length))
  named : t.current.map (·.1) = (paths.drop t.done).take t.current.length

/-- The traffic is where it can be, with some paths to be downloaded. -/
structure Fits (c : Config) (client : Client) (server : Server) (paths : List Path)
    (t : Traffic) : Prop where
  isCut : t.IsCut c paths
  files : t.files = collect [] (bodies c client server (paths.take t.done))
  past : ∀ entry, entry < t.done → eventsOf t.log entry = tripsOf c client server paths entry
  present : ∀ k path tr, t.current[k]? = some (path, tr) →
    eventsOf t.log (t.done + k) ++ tr.toCome server (t.done + k) =
        tripsOf c client server paths (t.done + k) ∧
      (tr.rest server).result.toOption = body? c client server path
  future : ∀ entry, t.done + t.current.length ≤ entry → eventsOf t.log entry = []
  /-- What was sent was answered, or its download waits for the answer. -/
  count : t.log.countP (·.isSent) =
    t.log.countP (!·.isSent) + t.current.countP (·.2.isAsked)
  /-- Whatever was sent, the earlier batches were over. -/
  ordered : ∀ before entry address after, t.log = before ++ .sent entry address :: after →
    ∀ earlier, earlier / c.batch < entry / c.batch →
      eventsOf before earlier = tripsOf c client server paths earlier

/-! ### The cut -/

section Cut

variable {c : Config} {client : Client} {paths : List Path} {t : Traffic}

theorem isCut_opened (c : Config) (paths : List Path) : (opened c paths).IsCut c paths where
  aligned := fun hne => absurd rfl hne
  width := Nat.zero_le _
  full := fun _ => Nat.dvd_zero _
  cut := ⟨paths.length, Nat.le_refl _, rfl⟩
  named := rfl

/-- Behind the first batch of some items are the items that are left. -/
theorem drop_length_take {α : Type} (size : Nat) (items : List α) :
    items.drop (items.take size).length = items.drop size := by
  rw [List.length_take]
  rcases Nat.le_total size items.length with hle | hle
  · rw [Nat.min_eq_left hle]
  · rw [Nat.min_eq_right hle, List.drop_length, List.drop_eq_nil_of_le hle]

/-- Either no entry is left, or whole batches are over and the next one is the first of the
entries that are left. -/
theorem IsCut.waiting_cases
    (h : t.IsCut c paths) :
    paths.drop (t.done + t.current.length) = [] ∧ t.waiting = [] ∨
      paths.drop (t.done + t.current.length) ≠ [] ∧ c.batch ∣ t.done + t.current.length ∧
        ∃ less, (paths.drop (t.done + t.current.length)).length ≤ less + 1 ∧
          t.waiting = (paths.drop (t.done + t.current.length)).take c.batch ::
            batches c.batch less ((paths.drop (t.done + t.current.length)).drop c.batch) := by
  obtain ⟨fuel, hfuel, hcut⟩ := h.cut
  rcases batches_cases c.batch hfuel with ⟨hnil, hnone⟩ | ⟨hne, less, rfl, hsome⟩
  · exact Or.inl ⟨hnil, hcut.trans hnone⟩
  · have hwaiting := hcut.trans hsome
    exact Or.inr ⟨hne, h.full (by rw [hwaiting]; exact List.cons_ne_nil _ _), less, hfuel, hwaiting⟩

/-- The batch that begins is the first of the entries that are left. -/
theorem IsCut.current_gather
    (h : t.IsCut c paths) (client : Client) :
    (t.gather c client).current =
      ((paths.drop (t.done + t.current.length)).take c.batch).map fun path =>
        (path, Transfer.ofPath c client path) := by
  rw [Traffic.gather]
  rcases h.waiting_cases with ⟨hnil, hwaiting⟩ | ⟨-, -, less, -, hwaiting⟩
  · rw [hwaiting, hnil, List.take_nil]
    rfl
  · rw [hwaiting]
    rfl

theorem IsCut.gather
    (h : t.IsCut c paths) :
    (t.gather c client).IsCut c paths := by
  have hcurrent := h.current_gather client
  have hdone : (t.gather c client).done = t.done + t.current.length := rfl
  have hwaiting : (t.gather c client).waiting = t.waiting.tail := rfl
  rcases h.waiting_cases with ⟨hnil, hnone⟩ | ⟨hne, hdvd, less, hless, hsome⟩
  · rw [hnil, List.take_nil, List.map_nil] at hcurrent
    rw [hnone, List.tail_nil] at hwaiting
    constructor
    case aligned => exact fun hbusy => absurd hcurrent hbusy
    case width => exact hcurrent ▸ Nat.zero_le _
    case full => exact fun hwaits => absurd hwaiting hwaits
    case cut => exact ⟨0, by rw [hcurrent, hdone, List.length_nil, Nat.add_zero, hnil]; rfl,
      by rw [hwaiting]; rfl⟩
    case named => rw [hcurrent]; rfl
  · rw [hsome, List.tail_cons] at hwaiting
    rw [← hdone] at hne hdvd hless hcurrent hwaiting
    generalize hitems : paths.drop (t.gather c client).done = items at hne hless hcurrent hwaiting
    have hlength : (t.gather c client).current.length = (items.take c.batch).length := by
      rw [hcurrent, List.length_map]
    have hlater : paths.drop ((t.gather c client).done + (t.gather c client).current.length) =
        items.drop c.batch := by
      rw [hlength, ← List.drop_drop, hitems, drop_length_take]
    have hfewer : (items.drop c.batch).length ≤ less := by
      have hpos := List.length_pos_iff.mpr hne
      have hsize := c.batch_pos
      rw [List.length_drop]
      omega
    constructor
    case aligned => exact fun _ => hdvd
    case width => exact hlength ▸ List.length_take_le _ _
    case full =>
      intro hwaits
      rcases batches_cases c.batch hfewer with ⟨-, hnone⟩ | ⟨hleft, -⟩
      · exact absurd (hwaiting.trans hnone) hwaits
      · have hlong := List.length_pos_iff.mpr hleft
        rw [List.length_drop] at hlong
        rw [hlength, List.length_take, Nat.min_eq_left (by omega)]
        exact Nat.dvd_add hdvd (Nat.dvd_refl _)
    case cut => exact ⟨less, hlater ▸ hfewer, by rw [hlater, hwaiting]⟩
    case named =>
      rw [hitems, hlength, hcurrent, List.map_map, List.length_take, ← List.take_eq_take_min]
      exact List.map_id _

/-- A file of the batch that begins is the next of the entries that are left. -/
theorem IsCut.getElem?_gather
    (h : t.IsCut c paths) {k : Nat} {path : Path} {tr : Transfer}
    (hk : (t.gather c client).current[k]? = some (path, tr)) :
    paths[t.done + t.current.length + k]? = some path ∧ tr = Transfer.ofPath c client path := by
  rw [h.current_gather client, List.getElem?_map] at hk
  obtain ⟨q, hq, hfile⟩ := Option.map_eq_some_iff.mp hk
  obtain ⟨rfl, rfl⟩ := Prod.mk.inj hfile
  rw [List.getElem?_take, Option.ite_none_right_eq_some, List.getElem?_drop] at hq
  exact ⟨hq.2, rfl⟩

theorem map_fst_set
    {k : Nat} {path : Path} {tr next : Transfer} (hk : t.current[k]? = some (path, tr)) :
    (t.current.set k (path, next)).map (·.1) = t.current.map (·.1) := by
  apply List.ext_getElem?
  intro i
  rw [List.map_set, List.getElem?_set]
  split_ifs with hi hlength
  · obtain rfl := hi
    rw [List.getElem?_map, hk]
    rfl
  · rw [List.getElem?_eq_none (by omega)]
  · rfl

theorem IsCut.advance
    (h : t.IsCut c paths) {k : Nat} {path : Path} {tr : Transfer}
    (hk : t.current[k]? = some (path, tr)) (next : Transfer) (e : Event) :
    (t.advance k path next e).IsCut c paths := by
  have hlength : (t.current.set k (path, next)).length = t.current.length := List.length_set
  have hbusy : t.current ≠ [] := List.ne_nil_of_mem (List.mem_of_getElem? hk)
  constructor
  case aligned => exact fun _ => h.aligned hbusy
  case width => exact hlength ▸ h.width
  case full => exact fun hne => hlength ▸ h.full hne
  case cut => exact hlength ▸ h.cut
  case named =>
    change (t.current.set k (path, next)).map (·.1) = _
    rw [map_fst_set hk, h.named]
    exact congrArg (fun n => (paths.drop t.done).take n) hlength.symm

/-- No entry is left when nothing is under way and nothing is to begin. -/
theorem IsCut.length_le_done
    (h : t.IsCut c paths) (hover : t.IsOver) :
    paths.length ≤ t.done := by
  obtain ⟨hcurrent, hwaiting⟩ := hover
  rcases h.waiting_cases with ⟨hnil, -⟩ | ⟨-, -, less, -, hsome⟩
  · rw [List.drop_eq_nil_iff, hcurrent] at hnil
    exact hnil
  · rw [hwaiting] at hsome
    contradiction

end Cut

/-! ### One turn -/

section Step

variable {c : Config} {client : Client} {server : Server} {paths : List Path} {t u : Traffic}

theorem step_turn (t : Traffic) (x : Turn) : Step c client server t (t.turn c client server x) := by
  cases x with
  | send k =>
    unfold turn
    dsimp only
    split
    · next path address hear hk => exact .move hk (.send address hear)
    · exact .idle
  | receive k =>
    unfold turn
    dsimp only
    split
    · next path address hear hk => exact .move hk (.receive address hear)
    · exact .idle
  | gather =>
    unfold turn
    dsimp only
    split_ifs with hall
    · exact .gather (List.all_eq_true.mp hall)
    · exact .idle

theorem eventsOf_concat_self (log : List Event) {e : Event} {entry : Nat} (h : e.entry = entry) :
    eventsOf (log ++ [e]) entry = eventsOf log entry ++ [e] := by
  rw [eventsOf, List.filter_append, List.filter_cons_of_pos (by simpa using h)]
  rfl

theorem eventsOf_concat_of_ne (log : List Event) {e : Event} {entry : Nat} (h : e.entry ≠ entry) :
    eventsOf (log ++ [e]) entry = eventsOf log entry := by
  rw [eventsOf, List.filter_append, List.filter_cons_of_neg (by simpa using h), List.filter_nil,
    List.append_nil]
  rfl

/-- The list is cut at the entries of which the first is that of a batch. -/
theorem lt_done_of_div_lt
    {size done k earlier : Nat} (haligned : size ∣ done) (hk : k < size)
    (h : earlier / size < (done + k) / size) :
    earlier < done := by
  obtain ⟨m, rfl⟩ := haligned
  rw [Nat.mul_add_div (by omega), Nat.div_eq_of_lt hk, Nat.add_zero] at h
  rw [Nat.mul_comm]
  exact (Nat.div_lt_iff_lt_mul (by omega)).mp h

/-- To send makes one more request wait for its answer, and an answer one less. -/
theorem countP_advance
    {k : Nat} {path : Path} {tr next : Transfer} {e : Event}
    (hk : t.current[k]? = some (path, tr)) (hmoves : tr.Moves server (t.done + k) e next)
    (hcount : t.log.countP (·.isSent) =
      t.log.countP (!·.isSent) + t.current.countP (·.2.isAsked)) :
    (t.log ++ [e]).countP (·.isSent) =
      (t.log ++ [e]).countP (!·.isSent) +
        (t.current.set k (path, next)).countP (·.2.isAsked) := by
  obtain ⟨hlt, hget⟩ := List.getElem?_eq_some_iff.mp hk
  rw [List.countP_append, List.countP_append, List.countP_set hlt, hget, hcount]
  cases hmoves with
  | send address hear =>
    have hready : (Transfer.ready (.request address hear)).isAsked = false := rfl
    have hasked : (Transfer.asked address hear).isAsked = true := rfl
    simp only [List.countP_cons, List.countP_nil, Event.isSent, hready, hasked, Bool.not_true,
      Bool.false_eq_true, if_true, if_false]
    omega
  | receive address hear =>
    have hasked : (Transfer.asked address hear).isAsked = true := rfl
    have hheard : (Transfer.ready (hear (server.answer address))).isAsked = false := rfl
    have hpos : 0 < t.current.countP (·.2.isAsked) :=
      List.countP_pos_iff.mpr ⟨_, List.mem_of_getElem? hk, hasked⟩
    simp only [List.countP_cons, List.countP_nil, Event.isSent, hasked, hheard, Bool.not_false,
      Bool.false_eq_true, if_true, if_false]
    omega

theorem Fits.advance
    (h : Fits c client server paths t) {k : Nat} {path : Path} {tr next : Transfer} {e : Event}
    (hk : t.current[k]? = some (path, tr)) (hmoves : tr.Moves server (t.done + k) e next) :
    Fits c client server paths (t.advance k path next e) := by
  have hlt : k < t.current.length := (List.getElem?_eq_some_iff.mp hk).1
  have hentry : e.entry = t.done + k := hmoves.entry_eq
  have hlength : (t.current.set k (path, next)).length = t.current.length := List.length_set
  constructor
  case isCut => exact h.isCut.advance hk next e
  case files => exact h.files
  case past =>
    intro entry hdone
    change entry < t.done at hdone
    exact (eventsOf_concat_of_ne t.log (by omega)).trans (h.past entry hdone)
  case present =>
    intro i q tr' hi
    change (t.current.set k (path, next))[i]? = some (q, tr') at hi
    change eventsOf (t.log ++ [e]) (t.done + i) ++ _ = _ ∧ _
    rw [List.getElem?_set] at hi
    split_ifs at hi with hsame
    · obtain rfl := hsame
      obtain ⟨rfl, rfl⟩ := Prod.mk.inj (Option.some.inj hi)
      obtain ⟨hevents, hresult⟩ := h.present k path tr hk
      rw [eventsOf_concat_self t.log hentry, List.append_assoc, hmoves.result_eq]
      rw [hmoves.toCome_eq] at hevents
      exact ⟨hevents, hresult⟩
    · rw [eventsOf_concat_of_ne t.log (by omega)]
      exact h.present i q tr' hi
  case future =>
    intro entry hentry'
    change t.done + (t.current.set k (path, next)).length ≤ entry at hentry'
    exact (eventsOf_concat_of_ne t.log (by omega)).trans (h.future entry (by omega))
  case count => exact countP_advance hk hmoves h.count
  case ordered =>
    intro before entry address after hlog earlier hearlier
    change t.log ++ [e] = _ at hlog
    rcases List.eq_nil_or_concat' after with rfl | ⟨after, last, rfl⟩
    · obtain ⟨rfl, hlast⟩ := List.append_inj' hlog rfl
      have hthis : e = .sent entry address := (List.cons.inj hlast).1
      have hsame : entry = t.done + k := by
        rw [hthis] at hentry
        exact hentry
      rw [hsame] at hearlier
      have hwidth := h.isCut.width
      have haligned := h.isCut.aligned (List.ne_nil_of_mem (List.mem_of_getElem? hk))
      exact h.past earlier (lt_done_of_div_lt haligned (by omega) hearlier)
    · rw [← List.cons_append, ← List.append_assoc] at hlog
      obtain ⟨hlog, -⟩ := List.append_inj' hlog rfl
      exact h.ordered before entry address after hlog earlier hearlier

theorem bodies_current
    (h : Fits c client server paths t) (hall : ∀ file ∈ t.current, file.2.result?.isSome = true) :
    (t.current.map fun (path, tr) => (path, tr.result?.bind Except.toOption)) =
      bodies c client server (t.current.map (·.1)) := by
  rw [bodies, List.map_map]
  apply List.map_congr_left
  intro file hfile
  obtain ⟨k, hk⟩ := List.getElem?_of_mem hfile
  obtain ⟨path, tr⟩ := file
  obtain ⟨-, hresult⟩ := h.present k path tr hk
  obtain ⟨result, hbrought⟩ := Option.isSome_iff_exists.mp (hall _ hfile)
  rw [Transfer.rest_of_result? hbrought] at hresult
  dsimp only [Function.comp_apply]
  rw [hbrought]
  exact congrArg (Prod.mk path) hresult

/-- All files of the batch are there, or known to be missing. -/
theorem Fits.past_of_ended
    (h : Fits c client server paths t) (hall : ∀ file ∈ t.current, file.2.result?.isSome = true)
    {entry : Nat} (hentry : entry < t.done + t.current.length) :
    eventsOf t.log entry = tripsOf c client server paths entry := by
  rcases Nat.lt_or_ge entry t.done with hdone | hdone
  · exact h.past entry hdone
  · obtain ⟨k, rfl⟩ := Nat.exists_eq_add_of_le hdone
    obtain ⟨file, hk⟩ : ∃ file, t.current[k]? = some file :=
      ⟨_, List.getElem?_eq_getElem (by omega)⟩
    obtain ⟨path, tr⟩ := file
    obtain ⟨hevents, -⟩ := h.present k path tr hk
    obtain ⟨result, hbrought⟩ := Option.isSome_iff_exists.mp (hall _ (List.mem_of_getElem? hk))
    rwa [Transfer.toCome_of_result? hbrought, List.append_nil] at hevents

theorem Fits.gather
    (h : Fits c client server paths t) (hall : ∀ file ∈ t.current, file.2.result?.isSome = true) :
    Fits c client server paths (t.gather c client) := by
  constructor
  case isCut => exact h.isCut.gather
  case files =>
    change collect t.files _ = collect [] (bodies c client server (paths.take (_ + _)))
    rw [bodies_current h hall, h.files, h.isCut.named, List.take_add, bodies_append,
      collect_append]
  case past => exact fun entry hentry => h.past_of_ended hall hentry
  case present =>
    intro k path tr hk
    obtain ⟨hpath, rfl⟩ := h.isCut.getElem?_gather hk
    have hnone : eventsOf t.log (t.done + t.current.length + k) = [] :=
      h.future _ (Nat.le_add_right _ _)
    refine ⟨?_, (Transfer.rest_ofPath c client path).2⟩
    have hdone : (t.gather c client).done = t.done + t.current.length := rfl
    have hlog : (t.gather c client).log = t.log := rfl
    rw [hdone, hlog, hnone, Transfer.toCome_ofPath, tripsOf, hpath]
    rfl
  case future =>
    intro entry hentry
    exact h.future entry (Nat.le_trans (Nat.le_add_right _ _) hentry)
  case count =>
    have hold : t.current.countP (·.2.isAsked) = 0 :=
      List.countP_eq_zero.mpr fun file hfile =>
        Bool.not_eq_true _ ▸ Transfer.isAsked_of_ended (hall file hfile)
    have hnew : (t.gather c client).current.countP (·.2.isAsked) = 0 := by
      rw [h.isCut.current_gather client, List.countP_map]
      exact List.countP_eq_zero.mpr fun path _ =>
        Bool.not_eq_true _ ▸ Transfer.isAsked_ofPath c client path
    rw [hnew, ← hold]
    exact h.count
  case ordered => exact h.ordered

theorem Fits.step
    (h : Fits c client server paths t) (hstep : Step c client server t u) :
    Fits c client server paths u := by
  cases hstep with
  | idle => exact h
  | move hk hmoves => exact h.advance hk hmoves
  | gather hall => exact h.gather hall

end Step

section Run

variable {c : Config} {client : Client} {server : Server} {paths : List Path} {t : Traffic}

theorem fits_opened (c : Config) (client : Client) (server : Server) (paths : List Path) :
    Fits c client server paths (opened c paths) where
  isCut := isCut_opened c paths
  files := rfl
  past := fun entry hentry => absurd hentry (Nat.not_lt_zero entry)
  present := fun _ _ _ hk => absurd hk (by simp [opened])
  future := fun _ _ => rfl
  count := rfl
  ordered := by simp [opened]

theorem Fits.run
    (h : Fits c client server paths t) (turns : List Turn) :
    Fits c client server paths (t.run c client server turns) := by
  induction turns generalizing t with
  | nil => exact h
  | cons x turns ih => exact ih (h.step (step_turn t x))

/-- What is still to happen, with every batch that is to end or to begin. -/
def remaining (c : Config) (client : Client) (server : Server) (t : Traffic) : Nat :=
  (t.current.map fun file => (file.2.toCome server 0).length).sum +
    min 1 t.current.length +
    (t.waiting.map fun batch =>
      (batch.map fun path => ((Transfer.ofPath c client path).toCome server 0).length).sum + 2).sum

theorem exists_turn_eq_advance
    {k : Nat} {path : Path} {tr next : Transfer} {e : Event}
    (hk : t.current[k]? = some (path, tr)) (hmoves : tr.Moves server (t.done + k) e next) :
    ∃ x, t.turn c client server x = t.advance k path next e := by
  cases hmoves with
  | send => exact ⟨.send k, by rw [turn, hk]⟩
  | receive => exact ⟨.receive k, by rw [turn, hk]⟩

theorem sum_map_set
    {α : Type} (f : α → Nat) {xs : List α} {k : Nat} {old : α} (hk : xs[k]? = some old) (x : α) :
    ((xs.set k x).map f).sum + f old = (xs.map f).sum + f x := by
  induction xs generalizing k with
  | nil => contradiction
  | cons first xs ih =>
    cases k with
    | zero =>
      obtain rfl := Option.some.inj hk
      simp only [List.set_cons_zero, List.map_cons, List.sum_cons]
      omega
    | succ k =>
      have hrest := ih hk
      simp only [List.set_cons_succ, List.map_cons, List.sum_cons]
      omega

/-- As long as the download is not over, something can happen, and less remains after it. -/
theorem exists_turn_lt
    (hopen : ¬t.IsOver) :
    ∃ x, (t.turn c client server x).remaining c client server < t.remaining c client server := by
  by_cases hall : ∀ file ∈ t.current, file.2.result?.isSome = true
  · refine ⟨.gather, ?_⟩
    rw [turn, if_pos (List.all_eq_true.mpr hall)]
    cases hwaiting : t.waiting with
    | nil =>
      have hpos := List.length_pos_iff.mpr fun hnil => hopen ⟨hnil, hwaiting⟩
      simp [remaining, gather, hwaiting]
      omega
    | cons batch rest =>
      simp only [remaining, gather, hwaiting, List.head?_cons, Option.getD_some, List.tail_cons,
        List.map_map, List.map_cons, List.sum_cons, Function.comp_def]
      omega
  · push Not at hall
    obtain ⟨⟨path, tr⟩, hfile, hnot⟩ := hall
    obtain ⟨k, hk⟩ := List.getElem?_of_mem hfile
    obtain ⟨e, next, hmoves⟩ :=
      Transfer.exists_moves server (t.done + k) (Option.not_isSome_iff_eq_none.mp hnot)
    obtain ⟨x, hx⟩ := exists_turn_eq_advance (c := c) hk hmoves
    have hsum := sum_map_set (fun file => (file.2.toCome server 0).length) hk (path, next)
    have hless := hmoves.length_toCome 0
    refine ⟨x, ?_⟩
    rw [hx]
    simp only [remaining, Traffic.advance, List.length_set]
    dsimp only at hsum hless
    omega

/-- Whatever has happened, the download can be brought to its end. -/
theorem exists_run_isOver (t : Traffic) : ∃ turns, (t.run c client server turns).IsOver := by
  induction hsize : t.remaining c client server using Nat.strong_induction_on generalizing t with
  | _ size ih =>
    by_cases hopen : t.IsOver
    · exact ⟨[], hopen⟩
    · obtain ⟨x, hx⟩ :
          ∃ x, (t.turn c client server x).remaining c client server < t.remaining c client server :=
        exists_turn_lt hopen
      obtain ⟨turns, hturns⟩ := ih _ (hsize ▸ hx) (t.turn c client server x) rfl
      exact ⟨x :: turns, hturns⟩

theorem tripsOf_of_le
    {entry : Nat} (h : paths.length ≤ entry) :
    tripsOf c client server paths entry = [] := by
  rw [tripsOf, List.getElem?_eq_none h]
  rfl

/-- When all is over, everything has happened for every entry. -/
theorem Fits.eventsOf_of_isOver
    (h : Fits c client server paths t) (hover : t.IsOver) (entry : Nat) :
    eventsOf t.log entry = tripsOf c client server paths entry := by
  have hdone := h.isCut.length_le_done hover
  rcases Nat.lt_or_ge entry t.done with hentry | hentry
  · exact h.past entry hentry
  · rw [h.future entry (by rw [hover.1]; exact hentry), tripsOf_of_le (by omega)]

/-- What has happened can be sorted by the entries. -/
theorem perm_flatMap_eventsOf
    {log : List Event} {n : Nat} (h : ∀ e ∈ log, e.entry < n) :
    log.Perm ((List.range n).flatMap (eventsOf log)) := by
  induction n generalizing log with
  | zero =>
    cases log with
    | nil => exact .nil
    | cons e log => exact absurd (h e List.mem_cons_self) (Nat.not_lt_zero _)
  | succ n ih =>
    have hbelow : ∀ e ∈ log.filter (·.entry < n), e.entry < n := by
      intro e he
      exact of_decide_eq_true (List.mem_filter.mp he).2
    have hsame : ∀ entry ∈ List.range n,
        eventsOf (log.filter (·.entry < n)) entry = eventsOf log entry := by
      intro entry hentry
      rw [eventsOf, List.filter_filter, eventsOf]
      refine List.filter_congr fun e _ => ?_
      have hlt := List.mem_range.mp hentry
      grind
    have hlast : (log.filter fun e => !decide (e.entry < n)) = eventsOf log n := by
      refine List.filter_congr fun e he => ?_
      have hlt := h e he
      grind
    rw [List.range_succ, List.flatMap_append, List.flatMap_singleton, ← List.flatMap_congr hsame,
      ← hlast]
    exact (List.filter_append_perm _ log).symm.trans ((ih hbelow).append_right _)

theorem flatMap_range_tripsOf (c : Config) (client : Client) (server : Server) (paths : List Path) :
    (List.range paths.length).flatMap
        (fun entry => (tripsOf c client server paths entry).filterMap Event.request?) =
      paths.flatMap fun path => (download c client server path).1 := by
  induction paths using List.reverseRecOn with
  | nil => rfl
  | append_singleton paths path ih =>
    have hbefore : ∀ entry ∈ List.range paths.length,
        tripsOf c client server (paths ++ [path]) entry = tripsOf c client server paths entry := by
      intro entry hentry
      rw [tripsOf, List.getElem?_append_left (List.mem_range.mp hentry), tripsOf]
    have hlast : tripsOf c client server (paths ++ [path]) paths.length =
        roundTrips paths.length (download c client server path).1 := by
      rw [tripsOf, List.getElem?_concat_length, Option.elim_some]
    rw [List.length_append, List.length_singleton, List.range_succ, List.flatMap_append,
      List.flatMap_singleton, hlast, filterMap_roundTrips, List.flatMap_append,
      List.flatMap_singleton, ← ih]
    refine congrArg (· ++ _) (List.flatMap_congr fun entry hentry => ?_)
    rw [hbefore entry hentry]

/-- When all is over, the files were requested as in a resolution, perhaps in another order. -/
theorem Fits.perm_requests
    (h : Fits c client server paths t) (hover : t.IsOver) :
    (t.log.filterMap Event.request?).Perm
      (paths.flatMap fun path => (download c client server path).1) := by
  have hevents := h.eventsOf_of_isOver hover
  have hbelow : ∀ e ∈ t.log, e.entry < paths.length := by
    intro e he
    by_contra hle
    have hmem : e ∈ eventsOf t.log e.entry := List.mem_filter.mpr ⟨he, decide_eq_true rfl⟩
    rw [hevents, tripsOf_of_le (Nat.le_of_not_lt hle)] at hmem
    contradiction
  have hperm := (perm_flatMap_eventsOf hbelow).filterMap Event.request?
  rw [List.filterMap_flatMap] at hperm
  simpa only [hevents, flatMap_range_tripsOf] using hperm

theorem Fits.isOrderly
    (h : Fits c client server paths t) :
    t.IsOrderly c client server paths (collect [] (bodies c client server paths)) where
  bounded := by
    have hasked : t.current.countP (·.2.isAsked) ≤ t.current.length := List.countP_le_length
    have hwidth := h.isCut.width
    rw [h.count]
    omega
  once := by
    intro entry
    rcases Nat.lt_or_ge entry t.done with hdone | hdone
    · exact h.past entry hdone ▸ List.prefix_rfl
    · obtain ⟨k, rfl⟩ := Nat.exists_eq_add_of_le hdone
      cases hk : t.current[k]? with
      | some file => exact ⟨_, (h.present k file.1 file.2 hk).1⟩
      | none =>
        rw [List.getElem?_eq_none_iff] at hk
        rw [h.future _ (by omega)]
        exact List.nil_prefix
  batchwise := h.ordered
  complete := by
    intro hover
    refine ⟨h.eventsOf_of_isOver hover, h.perm_requests hover, ?_⟩
    rw [h.files, List.take_of_length_le (h.isCut.length_le_done hover)]
  ends := exists_run_isOver t

/-- However sending and answering are interleaved, the traffic is orderly. -/
theorem isOrderly_run
    (c : Config) (client : Client) (server : Server) (paths : List Path) (turns : List Turn) :
    ((opened c paths).run c client server turns).IsOrderly c client server paths
      (collect [] (bodies c client server paths)) :=
  ((fits_opened c client server paths).run turns).isOrderly

end Run

end Traffic

end SolidWorkshop.Library
