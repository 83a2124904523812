import SolidWorkshop.Library.Directive
import SolidWorkshop.Proofs.Source.LineEnds

/-!
# Directives and edited values

A directive for a library may run over the ends of lines, so that it may begin on one line and go
on where a value is edited.  It never gets as far as the value: a value stands behind the sign of
its line, no directive has a sign in it, and each begins at the start of a line.  Whether a text
needs a library is therefore the same before and after its values are edited.
-/

namespace SolidWorkshop

open Text

namespace Library

/-! ## Texts that differ behind signs -/

/-- Two texts are the same but for what stands behind signs, and neither has the end of a line
where they differ. -/
inductive SameButBehindSigns : List Char → List Char → Prop
  | nil : SameButBehindSigns [] []
  | cons (c : Char) {s t : List Char} (h : SameButBehindSigns s t) :
      SameButBehindSigns (c :: s) (c :: t)
  | sign {u v s t : List Char} (hu : '\n' ∉ u) (hv : '\n' ∉ v) (h : SameButBehindSigns s t) :
      SameButBehindSigns ('=' :: (u ++ s)) ('=' :: (v ++ t))

namespace SameButBehindSigns

variable {s t : List Char} {word library : List Char}

theorem append
    {s' t' : List Char} (h : SameButBehindSigns s t) (h' : SameButBehindSigns s' t') :
    SameButBehindSigns (s ++ s') (t ++ t') := by
  induction h with
  | nil => exact h'
  | cons c _ ih => exact .cons c ih
  | sign hu hv _ ih =>
    rw [List.cons_append, List.cons_append, List.append_assoc, List.append_assoc]
    exact .sign hu hv ih

theorem refl (s : List Char) : SameButBehindSigns s s := by
  induction s with
  | nil => exact .nil
  | cons c s ih => exact .cons c ih

/-- A word without a sign begins both texts or none. -/
theorem isPrefixOf_eq
    (h : SameButBehindSigns s t) (hword : '=' ∉ word) :
    word.isPrefixOf s = word.isPrefixOf t := by
  induction h generalizing word with
  | nil => rfl
  | cons c _ ih =>
    cases word with
    | nil => rfl
    | cons d word =>
      rw [List.isPrefixOf, List.isPrefixOf, ih (List.not_mem_of_not_mem_cons hword)]
  | sign =>
    cases word with
    | nil => rfl
    | cons d word =>
      have hd : (d == '=') = false := beq_eq_false_iff_ne.mpr (List.ne_of_not_mem_cons hword).symm
      rw [List.isPrefixOf, List.isPrefixOf, hd, Bool.false_and, Bool.false_and]

/-- What stands behind such a word is the same but for what stands behind signs. -/
theorem drop
    (h : SameButBehindSigns s t) (hword : '=' ∉ word) (hbegins : word.isPrefixOf s = true) :
    SameButBehindSigns (s.drop word.length) (t.drop word.length) := by
  induction h generalizing word with
  | nil =>
    rw [List.drop_nil]
    exact .nil
  | cons c h ih =>
    cases word with
    | nil => exact .cons c h
    | cons d word =>
      rw [List.isPrefixOf, Bool.and_eq_true] at hbegins
      exact ih (List.not_mem_of_not_mem_cons hword) hbegins.2
  | sign hu hv h =>
    cases word with
    | nil => exact .sign hu hv h
    | cons d word =>
      rw [List.isPrefixOf, Bool.and_eq_true, beq_iff_eq] at hbegins
      exact absurd hbegins.1 (List.ne_of_not_mem_cons hword).symm

theorem trimStart
    (h : SameButBehindSigns s t) :
    SameButBehindSigns (trimStart s) (trimStart t) := by
  induction h with
  | nil => exact .nil
  | cons c h ih =>
    by_cases hc : isBlank c = true
    · rw [Text.trimStart, Text.trimStart, List.dropWhile_cons_of_pos hc,
        List.dropWhile_cons_of_pos hc]
      exact ih
    · rw [Text.trimStart, Text.trimStart, List.dropWhile_cons_of_neg hc,
        List.dropWhile_cons_of_neg hc]
      exact .cons c h
  | sign hu hv h =>
    have hsign : isBlank '=' ≠ true := by decide
    rw [Text.trimStart, Text.trimStart, List.dropWhile_cons_of_neg hsign,
      List.dropWhile_cons_of_neg hsign]
    exact .sign hu hv h

/-! ## Directives -/

theorem followsBlanks_eq
    (h : SameButBehindSigns s t) (hword : '=' ∉ word) :
    followsBlanks word s = followsBlanks word t := by
  induction h with
  | nil => rfl
  | cons c h ih =>
    have hprefix := (SameButBehindSigns.cons c h).isPrefixOf_eq hword
    rw [followsBlanks, followsBlanks, hprefix, ih]
  | sign hu hv h =>
    have hprefix := (SameButBehindSigns.sign hu hv h).isPrefixOf_eq hword
    have hsign : isBlank '=' = false := by decide
    rw [followsBlanks, followsBlanks, hprefix, hsign, Bool.false_and, Bool.false_and]

theorem opensLibrary_eq
    (h : SameButBehindSigns s t) (hlibrary : '=' ∉ library) :
    opensLibrary library s = opensLibrary library t := by
  have hname : '=' ∉ library ++ ['/'] := by
    simp [hlibrary]
  unfold opensLibrary
  generalize Text.trimStart s = s', Text.trimStart t = t', h.trimStart = h'
  cases h' with
  | nil => rfl
  | cons c h =>
    by_cases hc : c = '<'
    · rw [hc]
      exact h.followsBlanks_eq hname
    · simp [hc]
  | sign => rfl

theorem beginsDirective_eq
    (h : SameButBehindSigns s t) (hlibrary : '=' ∉ library) :
    beginsDirective library s = beginsDirective library t := by
  have hwords : ∀ word ∈ directiveWords, '=' ∉ word.toList := by decide
  have htrim := h.trimStart
  unfold beginsDirective
  dsimp only
  rw [Bool.eq_iff_iff, List.any_eq_true, List.any_eq_true]
  refine exists_congr fun word => and_congr_right fun hword => ?_
  rw [Bool.and_eq_true, Bool.and_eq_true, ← htrim.isPrefixOf_eq (hwords word hword)]
  refine and_congr_right fun hbegins => ?_
  rw [(htrim.drop (hwords word hword) hbegins).opensLibrary_eq hlibrary]

/-- A directive begins at the start of a line, and no line starts behind a sign. -/
theorem directiveBelow_eq
    (h : SameButBehindSigns s t) (hlibrary : '=' ∉ library) :
    directiveBelow library s = directiveBelow library t := by
  have hskip : ∀ u s, '\n' ∉ u → directiveBelow library (u ++ s) = directiveBelow library s := by
    intro u s hu
    induction u with
    | nil => rfl
    | cons c u ih =>
      have hc : c ≠ '\n' := (List.ne_of_not_mem_cons hu).symm
      have hrest := ih (List.not_mem_of_not_mem_cons hu)
      rw [List.cons_append, directiveBelow, hrest, decide_eq_false hc, Bool.false_and,
        Bool.false_or]
  induction h with
  | nil => rfl
  | cons c h ih => rw [directiveBelow, directiveBelow, ih, h.beginsDirective_eq hlibrary]
  | @sign u v s t hu hv _ ih =>
    have hu' : '\n' ∉ '=' :: u := by simp [hu]
    have hv' : '\n' ∉ '=' :: v := by simp [hv]
    exact (hskip _ _ hu').trans (ih.trans (hskip _ _ hv').symm)

/-- Both texts need a library, or none does. -/
theorem isReferenced_eq
    {library : String} (h : SameButBehindSigns s t) (hlibrary : '=' ∉ library.toList) :
    isReferenced library s = isReferenced library t := by
  rw [isReferenced, isReferenced, h.beginsDirective_eq hlibrary, h.directiveBelow_eq hlibrary]

/-- Texts are the same in this way if their lines are, one by one. -/
theorem unlines
    {ls ms : List (List Char)} (h : List.Forall₂ SameButBehindSigns ls ms) :
    SameButBehindSigns (unlines ls) (unlines ms) := by
  induction h with
  | nil => exact .nil
  | @cons l m ls ms hline hrest ih =>
    cases hrest with
    | nil =>
      rw [unlines_singleton, unlines_singleton]
      exact hline
    | cons =>
      rw [unlines_cons_cons, unlines_cons_cons]
      exact hline.append (.cons '\n' ih)

end SameButBehindSigns

end Library

namespace Source

open Library

variable {source effective : List Char} {edits : Edits} {overrides : List Override}

/-- The line of a parameter is rendered to one that differs behind the sign at most. -/
theorem sameButBehindSigns_of_render
    {d : Descriptor} {p : Layout} {line : List Char} (hp : d.StandsFor p)
    (hrender : d.render = .ok line) (hraw : '\n' ∉ d.rawLine) (hline : '\n' ∉ line) :
    SameButBehindSigns d.rawLine line := by
  obtain ⟨token, hcut, -⟩ := exists_token_of_render hp hrender
  rw [hp.rawLine, p.take_line_front, p.drop_line_literal, List.append_assoc] at hcut
  have hsign : ∀ rest, p.front ++ rest = p.head ++ '=' :: (p.afterSign ++ rest ++ []) := by
    intro rest
    simp [Layout.front]
  rw [hp.rawLine, Layout.line, hsign, List.append_nil] at hraw
  rw [hcut, hsign, List.append_nil] at hline
  rw [hp.rawLine, hcut, Layout.line, hsign, hsign]
  refine (SameButBehindSigns.refl p.head).append (.sign ?_ ?_ .nil)
  · exact fun hmem => hraw (by simp [hmem])
  · exact fun hmem => hline (by simp [hmem])

/-- Values on one line are written into a text so that it stays the same but for what stands
behind signs. -/
theorem sameButBehindSigns_of_customize
    (h : customize source edits = .ok (effective, overrides))
    (hedits : ∀ edit ∈ edits, edit.2.IsOneLine) :
    SameButBehindSigns source effective := by
  obtain ⟨found, edited, hfound, happly, hsynthesize, -⟩ := exists_of_customize h
  have hedited := edited_of_applyEdits happly
  have hvalues := isOneLine_of_applyInOrder hedits
    (fun d hd => isOneLine_of_mem_extract hfound hd) (applyEdits_eq_none_iff.mp happly).2
  obtain ⟨ls, hls, -⟩ := Failure.bind_eq_ok_iff.mp hsynthesize
  obtain ⟨written, hwritten, hlength, hother, hplaced⟩ :=
    synthesize_eq_ok hfound hedited (exists_render_of_foldlM hls)
  obtain rfl : effective = unlines written := Except.ok.inj (hsynthesize.symm.trans hwritten)
  conv_lhs => rw [← unlines_lines source]
  refine SameButBehindSigns.unlines (List.forall₂_iff_get.mpr ⟨hlength.symm, ?_⟩)
  intro i hi hi'
  have hold : (lines source)[i]? = some ((lines source).get ⟨i, hi⟩) := List.getElem?_eq_getElem hi
  have hnew : written[i]? = some (written.get ⟨i, hi'⟩) := List.getElem?_eq_getElem hi'
  by_cases hany : ∃ d ∈ edited, d.line = i
  · obtain ⟨d, hd, hline⟩ := hany
    obtain ⟨line, hrender, hget⟩ := hplaced d hd i hline
    obtain ⟨j, hj, hraw, p, hp⟩ := hedited.mem_standsIn hfound hd
    obtain rfl : i = j := by omega
    have hfree := newline_not_mem_of_mem_lines (List.mem_of_getElem? hraw)
    rw [Option.some.inj (hold.symm.trans hraw), Option.some.inj (hnew.symm.trans hget)]
    exact sameButBehindSigns_of_render hp hrender hfree
      (newline_not_mem_render (hvalues d hd) hfree hrender)
  · push Not at hany
    have hsame := hother i hany
    rw [Option.some.inj (hnew.symm.trans (hsame.trans hold))]
    exact .refl _

/-- Editing values on one line does not change whether a text needs a library.  The name of the
library may be any without a sign in it. -/
theorem isReferenced_customize
    {library : String} (h : customize source edits = .ok (effective, overrides))
    (hedits : ∀ edit ∈ edits, edit.2.IsOneLine) (hlibrary : '=' ∉ library.toList) :
    isReferenced library effective = isReferenced library source :=
  ((sameButBehindSigns_of_customize h hedits).isReferenced_eq hlibrary).symm

/-- A directive that goes on below the line it begins on, and two parameters. -/
def labelledPlate : List Char :=
  "use <\n\n lib/std.scad>\nlabel = \"a\"; // Text\nuse_lid = 1;".toList

/-- A label with the text of a directive in it needs no library. -/
theorem isReferenced_customize_of_labelledPlate :
    let edits := [("label", Value.text "; use <BOSL2/gear.scad>"), ("use_lid", .int 2)]
    ∃ effective overrides, customize labelledPlate edits = .ok (effective, overrides) ∧
      effective = ("use <\n\n lib/std.scad>\nlabel = \"; use <BOSL2/gear.scad>\"; // Text\n" ++
        "use_lid = 2;").toList ∧
      (∀ edit ∈ edits, edit.2.IsOneLine) ∧
      ('=' ∉ "lib".toList ∧ isReferenced "lib" effective = true) ∧
      '=' ∉ "BOSL2".toList ∧ isReferenced "BOSL2" effective = false := by
  intro edits
  have hcustomize : customize labelledPlate edits =
      .ok (("use <\n\n lib/std.scad>\nlabel = \"; use <BOSL2/gear.scad>\"; // Text\n" ++
          "use_lid = 2;").toList,
        [⟨"label", .text "; use <BOSL2/gear.scad>", .text⟩, ⟨"use_lid", .int 2, .number⟩]) :=
    Failure.eq_ok_of_toOption (by decide +kernel)
  have hedits : ∀ edit ∈ edits, edit.2.IsOneLine := by
    simp only [edits, List.forall_mem_cons]
    refine ⟨?_, nofun, nofun⟩
    rintro s ⟨⟩
    decide
  have hlib : '=' ∉ "lib".toList := by decide
  have hother : '=' ∉ "BOSL2".toList := by decide
  refine ⟨_, _, hcustomize, rfl, hedits, ⟨hlib, ?_⟩, hother, ?_⟩
  · rw [isReferenced_customize hcustomize hedits hlib]
    decide +kernel
  · rw [isReferenced_customize hcustomize hedits hother]
    decide +kernel

end Source

end SolidWorkshop
