import Mathlib.Data.List.Forall2
import Mathlib.Logic.Relation
import SolidWorkshop.Proofs.Source.Anchor
import SolidWorkshop.Source.Session

/-!
# Writing edited values back

Values are set on the extracted descriptors one after the other; whatever the order and the
number of these edits, a descriptor keeps its place and changes its value only.  Writing the
descriptors back replaces, on the line of every descriptor with a changed value, the characters
of its literal, and leaves every other character of the text as it was.
-/

namespace SolidWorkshop

open Source

/-! ## Edits -/

namespace Descriptor

theorem set_eq_ok_iff
    {d e : Descriptor} {raw : Value} :
    d.set raw = .ok e ↔ ∃ value, coerce d.kind raw = .ok value ∧ e = { d with value } := by
  unfold Descriptor.set
  rw [Failure.bind_eq_ok_iff]
  constructor
  · rintro ⟨value, hvalue, h⟩
    exact ⟨value, hvalue, (Except.ok.inj h).symm⟩
  · rintro ⟨value, hvalue, rfl⟩
    exact ⟨value, hvalue, rfl⟩

/-- The descriptor with its own value, or with one that is taken for its kind. -/
def IsEditOf (e d : Descriptor) : Prop :=
  ∃ value, e = { d with value } ∧ (value = d.value ∨ ∃ raw, coerce d.kind raw = .ok value)

theorem isEditOf_refl (d : Descriptor) : d.IsEditOf d :=
  ⟨d.value, rfl, Or.inl rfl⟩

theorem IsEditOf.set
    {d e f : Descriptor} {raw : Value} (he : e.IsEditOf d) (hf : e.set raw = .ok f) :
    f.IsEditOf d := by
  obtain ⟨value, rfl, -⟩ := he
  obtain ⟨newValue, hnew, rfl⟩ := set_eq_ok_iff.mp hf
  exact ⟨newValue, rfl, Or.inr ⟨raw, hnew⟩⟩

/-- An edited descriptor stands where it stood. -/
theorem IsEditOf.standsFor
    {d e : Descriptor} {p : Layout} (he : e.IsEditOf d) (hd : d.StandsFor p) :
    e.StandsFor p := by
  obtain ⟨value, rfl, -⟩ := he
  exact { hd with }

end Descriptor

namespace Source

/-- One descriptor of a list takes a value. -/
def TakesValue (before after : List Descriptor) : Prop :=
  ∃ place d raw e, before[place]? = some d ∧ Descriptor.set d raw = .ok e ∧
    after = before.set place e

/-- Values are set, one after the other and each of them successfully. -/
abbrev Edited : List Descriptor → List Descriptor → Prop :=
  Relation.ReflTransGen TakesValue

/-- A value set in a session is one that a descriptor takes. -/
theorem takesValue_of_set
    {s t : Session} {index : Int} {raw : Value} {d : Descriptor}
    (h : s.set index raw = .ok (t, d)) :
    TakesValue s.descriptors t.descriptors := by
  obtain ⟨⟨place, before⟩, hat, h⟩ := Failure.bind_eq_ok_iff.mp h
  obtain ⟨after, hset, h⟩ := Failure.bind_eq_ok_iff.mp h
  obtain ⟨rfl, rfl⟩ := Prod.mk.inj (Except.ok.inj h)
  refine ⟨place, before, raw, after, ?_, hset, rfl⟩
  unfold Session.at? at hat
  split at hat
  · contradiction
  · split at hat
    · next d hd =>
      obtain ⟨rfl, rfl⟩ := Prod.mk.inj (Except.ok.inj hat)
      exact hd
    · contradiction

theorem forall₂_set
    {α β : Type} {R : α → β → Prop} {xs : List α} {ys : List β} (h : List.Forall₂ R xs ys)
    {place : Nat} {y z : β} (hy : ys[place]? = some y) (hz : ∀ x, R x y → R x z) :
    List.Forall₂ R xs (ys.set place z) := by
  induction h generalizing place with
  | nil => exact .nil
  | @cons x y' xs ys hxy hrest ih =>
    cases place with
    | zero =>
      obtain rfl : y' = y := by simpa using hy
      exact .cons (hz x hxy) hrest
    | succ place => exact .cons hxy (ih (by simpa using hy))

/-- However many values are set, every descriptor is an edit of the one it was. -/
theorem Edited.forall₂_isEditOf
    {found edited : List Descriptor} (h : Edited found edited) :
    List.Forall₂ (fun d e => Descriptor.IsEditOf e d) found edited := by
  induction h with
  | refl => exact List.forall₂_same.mpr fun d _ => d.isEditOf_refl
  | tail _ hstep ih =>
    obtain ⟨place, d, raw, e, hd, he, rfl⟩ := hstep
    exact forall₂_set ih hd fun x hx => hx.set he

theorem exists_of_mem_right
    {α β : Type} {R : α → β → Prop} {xs : List α} {ys : List β} (h : List.Forall₂ R xs ys)
    {y : β} (hy : y ∈ ys) :
    ∃ x ∈ xs, R x y := by
  induction h with
  | nil => simp at hy
  | @cons x y' xs ys hxy _ ih =>
    rcases List.mem_cons.mp hy with rfl | hy
    · exact ⟨x, List.mem_cons_self, hxy⟩
    · obtain ⟨x', hx', hR⟩ := ih hy
      exact ⟨x', List.mem_cons_of_mem x hx', hR⟩

/-- The edited descriptors stand where the descriptors stood that were found. -/
theorem Edited.mem_standsIn
    {source : List Char} {found edited : List Descriptor} (hfound : extract source = .ok found)
    (hedited : Edited found edited) {e : Descriptor} (he : e ∈ edited) :
    ∃ i : Nat, e.line = i ∧ (Text.lines source)[i]? = some e.rawLine ∧
      ∃ p : Layout, e.StandsFor p := by
  obtain ⟨d, hd, hedit⟩ := exists_of_mem_right hedited.forall₂_isEditOf he
  obtain ⟨i, hline, hget, -, p, hp⟩ := (extract_standsIn hfound).1 d hd
  have hstand : e.StandsFor p := hedit.standsFor hp
  obtain ⟨value, rfl, -⟩ := hedit
  exact ⟨i, by simpa using hline, hget, p, hstand⟩

/-- Edited descriptors stand on different lines, in the order of these lines. -/
theorem Edited.pairwise_line
    {source : List Char} {found edited : List Descriptor} (hfound : extract source = .ok found)
    (hedited : Edited found edited) :
    edited.Pairwise fun d e => d.line < e.line := by
  have hsame : List.Forall₂ (fun d e => d.line = e.line) found edited := by
    refine hedited.forall₂_isEditOf.imp ?_
    rintro d e ⟨value, rfl, -⟩
    rfl
  have hlines : found.map (·.line) = edited.map (·.line) := by
    rw [← List.forall₂_eq_eq_eq, List.forall₂_map_left_iff, List.forall₂_map_right_iff]
    exact hsame
  have hsorted : (found.map (·.line)).Pairwise (· < ·) :=
    List.pairwise_map.mpr (extract_standsIn hfound).2
  rw [hlines] at hsorted
  exact List.pairwise_map.mp hsorted

/-! ## One line -/

theorem clip_natCast {length n : Nat} (h : n ≤ length) :
    Text.clip length (n : Int) = n := by
  have hneg : ¬(n : Int) < 0 := by omega
  simp [Text.clip, hneg, h]

theorem place?_natCast {length i : Nat} (h : i < length) :
    Text.place? length (i : Int) = some i := by
  have hneg : ¬(i : Int) < 0 := by omega
  simp [Text.place?, hneg, h]

/-- The line of a changed value is the line that was read, with another literal. -/
theorem render_of_standsFor
    {d : Descriptor} {p : Layout} (hp : d.StandsFor p) {literal : String}
    (hchanged : d.isUnchanged = false) (hliteral : d.literal = .ok literal) :
    d.render = .ok (p.withLiteral literal.toList).line := by
  have hbound := p.length_front_le
  unfold Descriptor.render
  rw [hchanged, hliteral, hp.rawLine, hp.valueStart, hp.valueEnd]
  simp only [Bool.false_eq_true, if_false, Text.replaceBetween]
  rw [clip_natCast hbound, clip_natCast (by omega), p.take_line_front, p.drop_line_literal,
    Layout.line_withLiteral]
  exact congrArg Except.ok (List.append_assoc _ _ _)

theorem render_of_isUnchanged
    {d : Descriptor} (h : d.isUnchanged = true) :
    d.render = .ok d.rawLine := by
  rw [Descriptor.render, if_pos h]

/-- A line can be rendered exactly when its value is unchanged or can be written as a literal. -/
theorem exists_literal_of_render
    {d : Descriptor} {line : List Char} (h : d.render = .ok line)
    (hchanged : d.isUnchanged = false) :
    ∃ literal, d.literal = .ok literal := by
  unfold Descriptor.render at h
  rw [hchanged] at h
  obtain ⟨literal, hliteral, -⟩ := Failure.bind_eq_ok_iff.mp h
  exact ⟨literal, hliteral⟩

/-! ## All lines -/

theorem writeLine_eq_ok
    {ls : List (List Char)} {d : Descriptor} {i : Nat} {line : List Char} (hline : d.line = i)
    (hget : ls[i]? = some d.rawLine) (hrender : d.render = .ok line) :
    writeLine ls d = .ok (ls.set i line) := by
  obtain ⟨hi, -⟩ := List.getElem?_eq_some_iff.mp hget
  unfold writeLine
  rw [if_neg (by omega), hline, place?_natCast hi, hrender]
  simp only [hget, if_true]
  rfl

/-- Descriptors on different lines are written without getting into each other's way. -/
theorem foldlM_writeLine
    {ds : List Descriptor} {ls : List (List Char)}
    (hdistinct : ds.Pairwise fun d e => d.line ≠ e.line)
    (hstand : ∀ d ∈ ds, ∃ i : Nat, d.line = i ∧ ls[i]? = some d.rawLine)
    (hrender : ∀ d ∈ ds, ∃ line, d.render = .ok line) :
    ∃ written, ds.foldlM writeLine ls = .ok written ∧ written.length = ls.length ∧
      (∀ i : Nat, (∀ d ∈ ds, d.line ≠ i) → written[i]? = ls[i]?) ∧
      ∀ d ∈ ds, ∀ i : Nat, d.line = i → ∃ line, d.render = .ok line ∧ written[i]? = some line := by
  induction ds generalizing ls with
  | nil => exact ⟨ls, rfl, rfl, fun _ _ => rfl, by simp⟩
  | cons d ds ih =>
    obtain ⟨hd, hdistinct⟩ := List.pairwise_cons.mp hdistinct
    obtain ⟨i, hline, hget⟩ := hstand d List.mem_cons_self
    obtain ⟨line, hrendered⟩ := hrender d List.mem_cons_self
    have hfirst := writeLine_eq_ok hline hget hrendered
    have hstand' : ∀ e ∈ ds, ∃ j : Nat, e.line = j ∧ (ls.set i line)[j]? = some e.rawLine := by
      intro e he
      obtain ⟨j, hj, hgetj⟩ := hstand e (List.mem_cons_of_mem d he)
      have hij : i ≠ j := by
        rintro rfl
        exact hd e he (by rw [hline, hj])
      exact ⟨j, hj, by rwa [List.getElem?_set_ne hij]⟩
    obtain ⟨written, hfold, hlength, hother, hwritten⟩ :=
      ih hdistinct hstand' fun e he => hrender e (List.mem_cons_of_mem d he)
    refine ⟨written, ?_, by simpa using hlength, ?_, ?_⟩
    · rw [List.foldlM_cons, hfirst]
      exact hfold
    · intro j hj
      have hij : i ≠ j := by
        rintro rfl
        exact hj d List.mem_cons_self hline
      rw [hother j fun e he => hj e (List.mem_cons_of_mem d he), List.getElem?_set_ne hij]
    · intro e he j hj
      rcases List.mem_cons.mp he with rfl | he
      · obtain rfl : i = j := by omega
        refine ⟨line, hrendered, ?_⟩
        obtain ⟨hi, -⟩ := List.getElem?_eq_some_iff.mp hget
        rw [hother i fun f hf hline' => hd f hf (by rw [hline, hline']),
          List.getElem?_set_self hi]
      · exact hwritten e he j hj

/-- Descriptors that stand on different lines of a text are written into it. -/
theorem exists_synthesize_of_standing
    {text : List Char} {ds : List Descriptor} (hdistinct : ds.Pairwise fun d e => d.line ≠ e.line)
    (hstand : ∀ d ∈ ds, ∃ i : Nat, d.line = i ∧ (Text.lines text)[i]? = some d.rawLine)
    (hrender : ∀ d ∈ ds, ∃ line, d.render = .ok line) :
    ∃ written, synthesize text ds = .ok (Text.unlines written) ∧
      written.length = (Text.lines text).length ∧
      (∀ i : Nat, (∀ d ∈ ds, d.line ≠ i) → written[i]? = (Text.lines text)[i]?) ∧
      ∀ d ∈ ds, ∀ i : Nat, d.line = i →
        ∃ line, d.render = .ok line ∧ written[i]? = some line := by
  obtain ⟨written, hfold, hwritten⟩ := foldlM_writeLine hdistinct hstand hrender
  refine ⟨written, ?_, hwritten⟩
  rw [synthesize, hfold]
  rfl

/-- Edited descriptors can be written whenever their lines can be rendered, and each of their
lines is then the rendered one. -/
theorem synthesize_eq_ok
    {source : List Char} {found edited : List Descriptor} (hfound : extract source = .ok found)
    (hedited : Edited found edited) (hrender : ∀ d ∈ edited, ∃ line, d.render = .ok line) :
    ∃ written, synthesize source edited = .ok (Text.unlines written) ∧
      written.length = (Text.lines source).length ∧
      (∀ i : Nat, (∀ d ∈ edited, d.line ≠ i) → written[i]? = (Text.lines source)[i]?) ∧
      ∀ d ∈ edited, ∀ i : Nat, d.line = i →
        ∃ line, d.render = .ok line ∧ written[i]? = some line := by
  have hdistinct : edited.Pairwise fun d e => d.line ≠ e.line :=
    (hedited.pairwise_line hfound).imp fun h => by omega
  refine exists_synthesize_of_standing hdistinct (fun d hd => ?_) hrender
  obtain ⟨i, hline, hget, -⟩ := hedited.mem_standsIn hfound hd
  exact ⟨i, hline, hget⟩

/-- The lines of a text with the values of edited descriptors in them. -/
structure Rewritten (source : List Char) (edited : List Descriptor)
    (written : List (List Char)) : Prop where
  /-- No line is added or lost. -/
  length : written.length = (Text.lines source).length
  /-- No line is changed for two descriptors. -/
  distinct : edited.Pairwise fun d e => d.line ≠ e.line
  /-- A line that no changed value stands on is the line of the text. -/
  untouched : ∀ i : Nat, (∀ d ∈ edited, d.line = i → d.isUnchanged = true) →
    written[i]? = (Text.lines source)[i]?
  /-- On the line of a changed value the characters of the old literal, and no others, have given
  way to the new one. -/
  replaced : ∀ d ∈ edited, d.isUnchanged = false →
    ∃ (i start stop : Nat) (line : List Char) (literal : String),
      d.line = i ∧ d.valueStart = start ∧ d.valueEnd = stop ∧
      (Text.lines source)[i]? = some line ∧ start ≤ stop ∧ stop ≤ line.length ∧
      (line.take stop).drop start = d.rawValue ∧ d.literal = .ok literal ∧
      written[i]? = some (line.take start ++ literal.toList ++ line.drop stop)

/-- Writing edited descriptors succeeds when their values can be rendered, and it changes the
literals of the changed values and nothing else; without a changed value it gives the text
back. -/
theorem synthesize_replaces_changed_literals
    {source : List Char} {found edited : List Descriptor} (hfound : extract source = .ok found)
    (hedited : Edited found edited) (hrender : ∀ d ∈ edited, ∃ line, d.render = .ok line) :
    (∃ written, synthesize source edited = .ok (Text.unlines written) ∧
      Rewritten source edited written) ∧
    ((∀ d ∈ edited, d.isUnchanged = true) → synthesize source edited = .ok source) := by
  obtain ⟨written, hsynthesize, hlength, hother, hwritten⟩ :=
    synthesize_eq_ok hfound hedited hrender
  have huntouched : ∀ i : Nat, (∀ d ∈ edited, d.line = i → d.isUnchanged = true) →
      written[i]? = (Text.lines source)[i]? := by
    intro i hi
    by_cases hany : ∃ d ∈ edited, d.line = i
    · obtain ⟨d, hd, hline⟩ := hany
      obtain ⟨line, hrendered, hget⟩ := hwritten d hd i hline
      obtain ⟨j, hj, hraw, -⟩ := hedited.mem_standsIn hfound hd
      obtain rfl : i = j := by omega
      rw [render_of_isUnchanged (hi d hd hline)] at hrendered
      rw [hget, hraw, Except.ok.inj hrendered]
    · push Not at hany
      exact hother i hany
  constructor
  · refine ⟨written, hsynthesize, hlength, ?_, huntouched, ?_⟩
    · exact (hedited.pairwise_line hfound).imp fun h => by omega
    · intro d hd hchanged
      obtain ⟨i, hline, hraw, p, hp⟩ := hedited.mem_standsIn hfound hd
      obtain ⟨line, hrendered, hget⟩ := hwritten d hd i hline
      obtain ⟨literal, hliteral⟩ := exists_literal_of_render hrendered hchanged
      rw [render_of_standsFor hp hchanged hliteral] at hrendered
      refine ⟨i, p.front.length, p.front.length + p.literal.length, p.line, literal, hline,
        hp.valueStart, hp.valueEnd, by rw [hraw, hp.rawLine], by omega, p.length_front_le, ?_,
        hliteral, ?_⟩
      · rw [p.take_line_literal, List.drop_left, hp.rawValue]
      · rw [hget, ← Except.ok.inj hrendered, p.take_line_front, p.drop_line_literal,
          Layout.line_withLiteral, List.append_assoc]
  · intro hunchanged
    have hsame : written = Text.lines source :=
      List.ext_getElem? fun i => huntouched i fun d hd _ => hunchanged d hd
    rw [hsynthesize, hsame, Text.unlines_lines]

/-- Of two literals the changed one is replaced, and the blanks, the comment and the carriage
return around it stay. -/
theorem synthesize_replaces_literal_of_width :
    ∃ found edited written,
      extract "width = 2.0 ; // mm\r\nlabel = \"a\";".toList = .ok found ∧
      Edited found edited ∧ (∀ d ∈ edited, ∃ line, d.render = .ok line) ∧
      synthesize "width = 2.0 ; // mm\r\nlabel = \"a\";".toList edited =
        .ok (Text.unlines written) ∧
      Rewritten "width = 2.0 ; // mm\r\nlabel = \"a\";".toList edited written ∧
      Text.unlines written = "width = 3 ; // mm\r\nlabel = \"a\";".toList := by
  let width : Descriptor :=
    { Assignment.descriptor ⟨"width", "2.0".toList, 8, 11, "mm"⟩ 0 "width = 2.0 ; // mm\r".toList
        none .number (.float (.ofDecimal false 20 (-1))) with description := "mm" }
  let label : Descriptor :=
    Assignment.descriptor ⟨"label", "\"a\"".toList, 8, 11, ""⟩ 1 "label = \"a\";".toList
      none .text (.text "a")
  let wider : Descriptor := { width with value := .int 3 }
  have hfound : extract "width = 2.0 ; // mm\r\nlabel = \"a\";".toList = .ok [width, label] :=
    Failure.eq_ok_of_toOption (by decide +kernel)
  have hedited : Edited [width, label] [wider, label] :=
    .single ⟨0, width, .int 3, wider, rfl, rfl, rfl⟩
  have hwider : wider.render = .ok "width = 3 ; // mm\r".toList :=
    Failure.eq_ok_of_toOption (by decide +kernel)
  have hlabel : label.render = .ok "label = \"a\";".toList :=
    Failure.eq_ok_of_toOption (by decide +kernel)
  have hrender : ∀ d ∈ [wider, label], ∃ line, Descriptor.render d = .ok line :=
    List.forall_mem_cons.mpr ⟨⟨_, hwider⟩, List.forall_mem_cons.mpr ⟨⟨_, hlabel⟩, by simp⟩⟩
  obtain ⟨⟨written, hwritten, hrewritten⟩, -⟩ :=
    synthesize_replaces_changed_literals hfound hedited hrender
  have htext : synthesize "width = 2.0 ; // mm\r\nlabel = \"a\";".toList [wider, label] =
      .ok "width = 3 ; // mm\r\nlabel = \"a\";".toList :=
    Failure.eq_ok_of_toOption (by decide +kernel)
  exact ⟨[width, label], [wider, label], written, hfound, hedited, hrender, hwritten, hrewritten,
    Except.ok.inj (hwritten.symm.trans htext)⟩

end Source

end SolidWorkshop
