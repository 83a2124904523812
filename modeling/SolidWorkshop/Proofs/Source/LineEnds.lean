import SolidWorkshop.Proofs.Source.Edits

/-!
# Line ends

A text may end its lines with a carriage return and a newline.  The carriage return then stands
at the end of every line but the last, where it is one more blank character behind whatever the
line says.  So the same assignments are found, and what is written into the lines is written in
front of the carriage returns.
-/

namespace SolidWorkshop

open Text

/-! ## Texts and their lines -/

namespace Text

/-- The text with a carriage return in front of every newline. -/
def crlf (s : List Char) : List Char :=
  s.flatMap fun c => if c = '\n' then ['\r', '\n'] else [c]

/-- A line among so many: with a carriage return at its end, unless it is the last one. -/
def endLine (count place : Nat) (line : List Char) : List Char :=
  if place + 1 < count then line ++ ['\r'] else line

/-- The lines of a text with a carriage return at the end of each but the last. -/
def endLines (ls : List (List Char)) : List (List Char) :=
  ls.mapIdx (endLine ls.length)

theorem endLine_inj {count place : Nat} {line other : List Char} :
    endLine count place line = endLine count place other ↔ line = other := by
  unfold endLine
  split_ifs
  · exact List.append_left_inj _
  · exact Iff.rfl

@[simp] theorem length_endLines (ls : List (List Char)) :
    (endLines ls).length = ls.length :=
  List.length_mapIdx

theorem getElem?_endLines (ls : List (List Char)) (place : Nat) :
    (endLines ls)[place]? = ls[place]?.map (endLine ls.length place) :=
  List.getElem?_mapIdx

theorem endLines_cons (line : List Char) (rest : List (List Char)) :
    endLines (line :: rest) = endLine (rest.length + 1) 0 line :: endLines rest := by
  have hrest : (fun place => endLine (rest.length + 1) (place + 1)) = endLine rest.length := by
    funext place line
    simp [endLine]
  rw [endLines, List.mapIdx_cons, List.length_cons, hrest]
  rfl

theorem endLines_set (ls : List (List Char)) (place : Nat) (line : List Char) :
    endLines (ls.set place line) = (endLines ls).set place (endLine ls.length place line) := by
  apply List.ext_getElem?
  intro i
  rw [getElem?_endLines, List.getElem?_set, List.getElem?_set, List.length_set, length_endLines]
  split_ifs with hplace hlt
  · subst hplace
    rfl
  · rfl
  · rw [getElem?_endLines]

/-- The newlines cut the text into the same lines, with a carriage return at the end of each but
the last. -/
theorem lines_crlf (s : List Char) :
    lines (crlf s) = endLines (lines s) := by
  induction s with
  | nil => rfl
  | cons c s ih =>
    obtain ⟨line, rest, hlines⟩ := List.exists_cons_of_ne_nil (lines_ne_nil s)
    have hcons (c : Char) (t : List Char) : lines (c :: t) = splitStep '\n' c (lines t) :=
      splitOn_cons '\n' c t
    rw [hlines] at ih
    rw [hcons, hlines]
    by_cases hc : c = '\n'
    · have hcrlf : crlf (c :: s) = '\r' :: '\n' :: crlf s := by simp [crlf, hc]
      rw [hcrlf, hcons, hcons, ih, splitStep, if_pos hc, endLines_cons [], endLines_cons line]
      simp [splitStep, endLine]
    · have hcrlf : crlf (c :: s) = c :: crlf s := by simp [crlf, hc]
      rw [hcrlf, hcons, ih, splitStep, if_neg hc, endLines_cons, endLines_cons, splitStep,
        if_neg hc]
      unfold endLine
      split_ifs
      · rfl
      · rfl

/-- Lines that are put together and lines that have got their carriage returns first make the same
text, up to the carriage returns. -/
theorem crlf_unlines
    {ls : List (List Char)} (hne : ls ≠ []) (hfree : ∀ line ∈ ls, '\n' ∉ line) :
    crlf (unlines ls) = unlines (endLines ls) := by
  rw [← unlines_lines (crlf (unlines ls)), lines_crlf, lines_unlines hne hfree]

end Text

/-! ## Shapes of lines -/

namespace Source

theorem allBlank_return : AllBlank ['\r'] := by
  intro c hc
  obtain rfl := List.mem_singleton.mp hc
  decide

namespace Layout

variable {p : Layout} {blank line : List Char}

/-- The parts of a line with something behind its end. -/
def extend (p : Layout) (more : List Char) : Layout :=
  { p with tail := p.tail ++ more }

theorem line_extend (p : Layout) (more : List Char) :
    (p.extend more).line = p.line ++ more := by
  simp [extend, line, front, head, back]

theorem assignment_extend (hblank : AllBlank blank) :
    (p.extend blank).assignment = p.assignment := by
  have htrim : trim (p.tail ++ blank) = trim p.tail := trim_append_of_allBlank hblank p.tail
  simp [assignment, extend, commentText, front, head, htrim]

theorem wellFormed_extend_iff (hblank : AllBlank blank) :
    (p.extend blank).WellFormed ↔ p.WellFormed := by
  have htrim : trim (p.tail ++ blank) = trim p.tail := trim_append_of_allBlank hblank p.tail
  have htail : IsTail (p.tail ++ blank) ↔ IsTail p.tail := by rw [IsTail, IsTail, htrim]
  constructor
  · intro hp
    exact { hp with tail := htail.mp hp.tail }
  · intro hp
    exact { hp with tail := htail.mpr hp.tail }

/-- What is blank at the end of a line stands in its tail: the semicolon is not blank. -/
theorem exists_extend_of_line_eq
    (hblank : AllBlank blank) (h : p.line = line ++ blank) :
    ∃ q : Layout, p = q.extend blank ∧ q.line = line := by
  suffices htail : ∃ tail, p.tail = tail ++ blank by
    obtain ⟨tail, htail⟩ := htail
    have hp : p = ({ p with tail } : Layout).extend blank := by
      rw [extend, ← htail]
    refine ⟨{ p with tail }, hp, ?_⟩
    rw [hp, line_extend] at h
    exact List.append_cancel_right h
  have hline : p.line = (p.front ++ p.literal ++ p.beforeEnd ++ [';']) ++ p.tail := by
    simp [Layout.line, back]
  rw [hline, List.append_eq_append_iff] at h
  rcases h with ⟨more, -, htail⟩ | ⟨more, hfront, hmore⟩
  · exact ⟨more, htail⟩
  · cases more using List.reverseRecOn with
    | nil => exact ⟨[], hmore.symm⟩
    | append_singleton more c =>
      rw [← List.append_assoc] at hfront
      obtain ⟨-, hlast⟩ := List.append_inj' hfront rfl
      obtain rfl : ';' = c := by simpa using hlast
      have hmem : ';' ∈ blank := by simp [hmore]
      exact absurd hmem (semicolon_not_mem_of_allBlank hblank)

end Layout

/-- A blank end of a line does not matter to the assignment on it. -/
theorem Assignment.ofLine?_append_of_allBlank
    {blank : List Char} (hblank : AllBlank blank) (line : List Char) :
    Assignment.ofLine? (line ++ blank) = Assignment.ofLine? line := by
  ext a
  constructor
  · intro h
    obtain ⟨p, hp, hline, rfl⟩ := Layout.exists_of_ofLine? h
    obtain ⟨q, rfl, rfl⟩ := Layout.exists_extend_of_line_eq hblank hline
    rw [Layout.assignment_extend hblank]
    exact ((Layout.wellFormed_extend_iff hblank).mp hp).ofLine?_line
  · intro h
    obtain ⟨p, hp, rfl, rfl⟩ := Layout.exists_of_ofLine? h
    rw [← p.line_extend, ← Layout.assignment_extend hblank]
    exact ((Layout.wellFormed_extend_iff hblank).mpr hp).ofLine?_line

/-- A blank end of a line does not matter to its shape. -/
theorem Shape.ofLine?_append_of_allBlank
    {blank : List Char} (hblank : AllBlank blank) (line : List Char) :
    Shape.ofLine? (line ++ blank) = Shape.ofLine? line := by
  rw [Shape.ofLine?, Shape.ofLine?, trim_append_of_allBlank hblank,
    Assignment.ofLine?_append_of_allBlank hblank]

theorem Shape.ofLine?_endLine (count place : Nat) (line : List Char) :
    Shape.ofLine? (endLine count place line) = Shape.ofLine? line := by
  unfold endLine
  split_ifs
  · exact Shape.ofLine?_append_of_allBlank allBlank_return line
  · rfl

end Source

/-! ## Extraction -/

/-- The descriptor of the same assignment among so many lines that end in carriage returns. -/
def Descriptor.endLine (count : Nat) (d : Descriptor) : Descriptor :=
  { d with rawLine := Text.endLine count d.line.toNat d.rawLine }

namespace Descriptor

variable (count : Nat) (d : Descriptor)

@[simp] theorem line_endLine : (d.endLine count).line = d.line := rfl

@[simp] theorem name_endLine : (d.endLine count).name = d.name := rfl

@[simp] theorem isUnchanged_endLine : (d.endLine count).isUnchanged = d.isUnchanged := rfl

@[simp] theorem literal_endLine : (d.endLine count).literal = d.literal := rfl

end Descriptor

namespace Source

variable {count : Nat}

theorem annotate_endLine (d : Descriptor) (note : Annotation) :
    annotate (d.endLine count) note = (annotate d note).map (Descriptor.endLine count) := by
  cases note with
  | options tokens ambiguous =>
    change (tokens.mapM (optionOf d.kind) >>= _) = (tokens.mapM (optionOf d.kind) >>= _).map _
    cases tokens.mapM (optionOf d.kind) with
    | error failure => rfl
    | ok options => rfl
  | _ => rfl

theorem descriptorOf?_endLine
    (a : Assignment) (line : Nat) (rawLine : List Char) (title : Option String) :
    descriptorOf? a line (Text.endLine count line rawLine) title =
      (descriptorOf? a line rawLine title).map (Option.map (Descriptor.endLine count)) := by
  unfold descriptorOf?
  split_ifs
  · rfl
  · cases Literal.ofChars? a.literal with
    | error failure => rfl
    | ok literal =>
      cases literal with
      | none => rfl
      | some literal =>
        cases Annotation.ofChars a.comment.toList with
        | error failure => rfl
        | ok note =>
          change (annotate ((a.descriptor line rawLine title literal.1 literal.2).endLine count)
            note >>= _) = (annotate (a.descriptor line rawLine title literal.1 literal.2) note >>=
              _).map _
          rw [annotate_endLine]
          cases annotate (a.descriptor line rawLine title literal.1 literal.2) note with
          | error failure => rfl
          | ok d => rfl

/-- A scan finds the same assignments. -/
theorem scan_endLines
    {first : Nat} {title : Option String} {ls : List (List Char)}
    (hcount : count = first + ls.length) :
    scan first title (endLines ls) =
      (scan first title ls).map (List.map (Descriptor.endLine count)) := by
  induction ls generalizing first title with
  | nil => rfl
  | cons rawLine rest ih =>
    have hrest : count = first + 1 + rest.length := by
      rw [hcount, List.length_cons]
      omega
    have hline : endLine (rest.length + 1) 0 rawLine = endLine count first rawLine := by
      unfold endLine
      exact if_congr (by omega) rfl rfl
    have hshape := Shape.ofLine?_endLine count first rawLine
    rw [endLines_cons, hline]
    cases hfound : Shape.ofLine? rawLine with
    | none =>
      rw [scan_cons_none (hshape.trans hfound), scan_cons_none hfound, ih hrest]
    | some shape =>
      cases shape with
      | sectionHeader header =>
        rw [scan_cons_header (hshape.trans hfound), scan_cons_header hfound, ih hrest]
      | stopKeyword word =>
        rw [scan_cons_stop (hshape.trans hfound), scan_cons_stop hfound]
        rfl
      | assignment a =>
        rw [scan, scan, hshape, hfound]
        dsimp only
        rw [descriptorOf?_endLine, ih hrest]
        cases descriptorOf? a first rawLine title with
        | error failure => rfl
        | ok found =>
          cases scan (first + 1) title rest with
          | error failure => rfl
          | ok others =>
            cases found with
            | none => rfl
            | some d => rfl

theorem extract_crlf (source : List Char) :
    extract (crlf source) =
      (extract source).map (List.map (Descriptor.endLine (lines source).length)) := by
  unfold extract
  rw [lines_crlf]
  exact scan_endLines (Nat.zero_add _).symm

end Source

/-! ## Values on one line -/

theorem newline_not_mem_of_isNumeralChar
    {s : List Char} (h : ∀ c ∈ s, Numeral.IsNumeralChar c) :
    '\n' ∉ s :=
  fun hmem => absurd (h _ hmem) (by decide)

theorem newline_not_mem_toString (n : Int) :
    '\n' ∉ (toString n).toList := by
  apply newline_not_mem_of_isNumeralChar
  rw [← Numeral.written_ofInt]
  exact fun c hc => (Numeral.isPlain_ofInt n).isNumeralChar hc

theorem Binary64.newline_not_mem_text (x : Binary64) :
    '\n' ∉ x.text.toList := by
  cases hfinite : x.isFinite with
  | true =>
    obtain ⟨n, hn, hwritten, -⟩ := Numeral.exists_of_text hfinite
    apply newline_not_mem_of_isNumeralChar
    rw [← hwritten]
    exact fun c hc => hn.isNumeralChar hc
  | false =>
    cases x with
    | finite negative units fits => contradiction
    | infinite negative =>
      cases negative with
      | _ => decide
    | nan => decide

namespace Text

theorem newline_not_mem_toDigits (n : Nat) :
    '\n' ∉ Nat.toDigits 16 n := by
  induction n using Nat.strongRecOn with
  | ind n ih =>
    rw [Nat.toDigits_eq_if (by decide)]
    split_ifs with hsmall
    · simp
    · rw [List.mem_append, not_or]
      exact ⟨ih _ (by omega), by simp⟩

theorem newline_not_mem_hex (width n : Nat) :
    '\n' ∉ hex width n := by
  unfold hex
  rw [List.mem_append, not_or]
  exact ⟨fun hmem => absurd (List.eq_of_mem_replicate hmem) (by decide), newline_not_mem_toDigits n⟩

/-- A newline in quotes is shown as an escape. -/
theorem newline_not_mem_quotedChar
    {quote : Char} (hquote : quote ≠ '\n') (c : Char) :
    '\n' ∉ quotedChar quote c := by
  have hhex (letter : Char) (hletter : letter ≠ '\n') (width : Nat) :
      '\n' ∉ '\\' :: letter :: hex width c.toNat := by
    simpa [hletter.symm] using newline_not_mem_hex width c.toNat
  unfold quotedChar
  split_ifs with hquoted hnewline
  · have hne : c ≠ '\n' := by
      rintro rfl
      simp [hquote.symm] at hquoted
    simpa using hne.symm
  · decide
  · decide
  · decide
  · simpa using Ne.symm hnewline
  · exact hhex 'x' (by decide) 2
  · exact hhex 'u' (by decide) 4
  · exact hhex 'U' (by decide) 8

theorem newline_not_mem_quotedBytes (bytes : ByteArray) :
    '\n' ∉ (quotedBytes bytes).toList := by
  unfold quotedBytes
  dsimp only
  have hquote : quoteFor (bytes.toList.map fun b => Char.ofNat b.toNat) ≠ '\n' := by
    unfold quoteFor
    split_ifs <;> decide
  generalize quoteFor (bytes.toList.map fun b => Char.ofNat b.toNat) = quote at hquote
  have hbody : '\n' ∉ bytes.toList.flatMap (quotedByte quote) := by
    rw [List.mem_flatMap]
    rintro ⟨b, -, hmem⟩
    unfold quotedByte at hmem
    dsimp only at hmem
    split_ifs at hmem
    · exact newline_not_mem_quotedChar hquote _ hmem
    · simp [newline_not_mem_hex] at hmem
  simp [hbody, hquote.symm]

end Text

/-- No text with a newline in it. -/
def Value.IsOneLine (v : Value) : Prop :=
  ∀ s, v = .text s → '\n' ∉ s.toList

theorem Value.newline_not_mem_plain
    {v : Value} (hv : v.IsOneLine) (hlist : ∀ items, v ≠ .list items)
    (hdict : ∀ entries, v ≠ .dict entries) :
    '\n' ∉ v.plain.toList := by
  cases v with
  | null => decide
  | bool b =>
    cases b with
    | _ => decide
  | int n => exact newline_not_mem_toString n
  | float x => exact x.newline_not_mem_text
  | text s => exact hv s rfl
  | bytes b => exact Text.newline_not_mem_quotedBytes b
  | list items => exact absurd rfl (hlist items)
  | dict entries => exact absurd rfl (hdict entries)

theorem Value.eq_plain_of_print
    {v : Value} {s : String} (h : v.print = .ok s) :
    s = v.plain := by
  unfold Value.print at h
  split_ifs at h
  exact (Except.ok.inj h).symm

theorem Scalar.newline_not_mem_plain
    {v : Scalar} (hv : v.toValue.IsOneLine) :
    '\n' ∉ v.toValue.plain.toList := by
  apply Value.newline_not_mem_plain hv
  · cases v with
    | _ => nofun
  · cases v with
    | _ => nofun

/-- A value on one line is written on one line. -/
theorem newline_not_mem_literal
    {kind : Kind} {v : Scalar} (hv : v.toValue.IsOneLine) {s : String}
    (h : literal kind v.toValue = .ok s) :
    '\n' ∉ s.toList := by
  have hplain := v.newline_not_mem_plain hv
  cases kind with
  | bool =>
    obtain rfl := Except.ok.inj h
    split_ifs <;> decide
  | text =>
    obtain ⟨t, ht, h⟩ := Failure.bind_eq_ok_iff.mp h
    obtain rfl := Value.eq_plain_of_print ht
    obtain rfl := Except.ok.inj h
    simp [hplain]
  | number =>
    cases v with
    | bool b =>
      obtain rfl := Except.ok.inj h
      split_ifs <;> decide
    | int n =>
      obtain rfl := Value.eq_plain_of_print h
      exact hplain
    | text t =>
      have hprint : Value.print (.text t) = .ok s := h
      obtain rfl := Value.eq_plain_of_print hprint
      exact hplain
    | float x =>
      change numberLiteral (.float x) = .ok s at h
      unfold numberLiteral at h
      dsimp only at h
      split_ifs at h
      · split at h
        · split_ifs at h
          · obtain rfl := Except.ok.inj h
            exact newline_not_mem_toString _
          · obtain rfl := Except.ok.inj h
            exact x.newline_not_mem_text
        · obtain rfl := Except.ok.inj h
          exact x.newline_not_mem_text

/-- A value on one line is taken as a value on one line. -/
theorem isOneLine_of_coerce
    {kind : Kind} {raw : Value} {v : Scalar} (hraw : raw.IsOneLine) (h : coerce kind raw = .ok v) :
    v.toValue.IsOneLine := by
  rintro s hs
  obtain rfl : v = .text s := by
    cases v with
    | text t =>
      obtain rfl := Value.text.inj hs
      rfl
    | _ => contradiction
  obtain rfl : kind = .text := by
    cases hasKind_of_coerce h
    rfl
  have hprinted {raw : Value} (hraw : raw.IsOneLine) (hlist : ∀ items, raw ≠ .list items)
      (hdict : ∀ entries, raw ≠ .dict entries)
      (h : (do return .text (← raw.print)) = (.ok (.text s) : Except Failure Scalar)) :
      '\n' ∉ s.toList := by
    obtain ⟨t, ht, h⟩ := Failure.bind_eq_ok_iff.mp h
    obtain rfl := Scalar.text.inj (Except.ok.inj h)
    obtain rfl := Value.eq_plain_of_print ht
    exact Value.newline_not_mem_plain hraw hlist hdict
  cases raw with
  | text t =>
    obtain rfl := Scalar.text.inj (Except.ok.inj h)
    exact hraw t rfl
  | list items => exact absurd h (refuse_ne_ok _ _ _)
  | dict entries => exact absurd h (refuse_ne_ok _ _ _)
  | _ => exact hprinted hraw nofun nofun h

namespace Source

variable {count : Nat} {ds edited : List Descriptor} {edits : Edits}

/-! ## Setting values -/

theorem findLast?_map_endLine (ds : List Descriptor) (name : String) :
    findLast? (ds.map (Descriptor.endLine count)) name =
      (findLast? ds name).map (Descriptor.endLine count) := by
  unfold findLast?
  rw [← List.map_reverse, List.find?_map]
  rfl

theorem updateLast_map_endLine (name : String) (d : Descriptor) (ds : List Descriptor) :
    updateLast name (d.endLine count) (ds.map (Descriptor.endLine count)) =
      (updateLast name d ds).map (Descriptor.endLine count) := by
  have hafter : ((ds.map (Descriptor.endLine count)).reverse.takeWhile (·.name != name)).length =
      (ds.reverse.takeWhile (·.name != name)).length := by
    rw [← List.map_reverse, List.takeWhile_map, List.length_map]
    rfl
  unfold updateLast
  rw [hafter, List.length_map, List.map_set]

theorem applyEdit_map_endLine (ds : List Descriptor) (name : String) (raw : Value) :
    applyEdit (ds.map (Descriptor.endLine count)) name raw =
      (applyEdit ds name raw).map (List.map (Descriptor.endLine count)) := by
  cases hlast : findLast? ds name with
  | none =>
    unfold applyEdit
    rw [findLast?_map_endLine, hlast]
    rfl
  | some d =>
    have hlast' : findLast? (ds.map (Descriptor.endLine count)) name = some (d.endLine count) := by
      rw [findLast?_map_endLine, hlast]
      rfl
    have hkind : coerce (d.endLine count).kind raw = coerce d.kind raw := rfl
    rw [applyEdit_of_findLast? hlast, applyEdit_of_findLast? hlast', hkind]
    cases coerce d.kind raw with
    | ok value => exact congrArg Except.ok (updateLast_map_endLine name { d with value } ds)
    | error cause =>
      dsimp only
      split_ifs
      · rfl
      · rfl

theorem applyInOrder_map_endLine (ds : List Descriptor) (edits : Edits) :
    applyInOrder (ds.map (Descriptor.endLine count)) edits =
      ((applyInOrder ds edits).1.map (Descriptor.endLine count), (applyInOrder ds edits).2) := by
  induction edits generalizing ds with
  | nil => rfl
  | cons edit edits ih =>
    rw [applyInOrder, applyInOrder, applyEdit_map_endLine]
    cases applyEdit ds edit.1 edit.2 with
    | ok later => exact ih later
    | error failure => rfl

/-- Values are set in the same way. -/
theorem applyEdits_map_endLine (ds : List Descriptor) (edits : Edits) :
    applyEdits (ds.map (Descriptor.endLine count)) edits =
      ((applyEdits ds edits).1.map (Descriptor.endLine count), (applyEdits ds edits).2) := by
  have hunknown : unknownNames (ds.map (Descriptor.endLine count)) edits =
      unknownNames ds edits := by
    simp only [unknownNames, findLast?_map_endLine, Option.isNone_map]
  unfold applyEdits
  rw [hunknown]
  split
  · exact applyInOrder_map_endLine ds edits
  · rfl

/-- Values on one line stay on one line. -/
theorem isOneLine_of_applyEdit
    {name : String} {raw : Value} (hraw : raw.IsOneLine)
    (hds : ∀ d ∈ ds, d.value.toValue.IsOneLine) (h : applyEdit ds name raw = .ok edited) :
    ∀ d ∈ edited, d.value.toValue.IsOneLine := by
  obtain ⟨d, value, -, hvalue, rfl⟩ := exists_of_applyEdit h
  intro e he
  rcases mem_of_mem_updateLast he with he | rfl
  · exact hds e he
  · exact isOneLine_of_coerce hraw hvalue

theorem isOneLine_of_applyInOrder
    (hedits : ∀ edit ∈ edits, edit.2.IsOneLine) (hds : ∀ d ∈ ds, d.value.toValue.IsOneLine)
    (h : applyInOrder ds edits = (edited, none)) :
    ∀ d ∈ edited, d.value.toValue.IsOneLine := by
  induction edits generalizing ds with
  | nil =>
    obtain ⟨rfl, -⟩ := Prod.mk.inj h
    exact hds
  | cons edit edits ih =>
    obtain ⟨hedit, hedits⟩ := List.forall_mem_cons.mp hedits
    obtain ⟨later, hstep, h⟩ := exists_of_applyInOrder_cons h
    exact ih hedits (isOneLine_of_applyEdit hedit hds hstep) h

/-- What stands in the literals of a text is on one line. -/
theorem isOneLine_of_mem_extract
    {source : List Char} (hds : extract source = .ok ds) {d : Descriptor} (hd : d ∈ ds) :
    d.value.toValue.IsOneLine := by
  obtain ⟨kind, hread, hvalue, -⟩ := exists_read_of_mem_extract hds hd
  obtain ⟨i, -, hget, -, p, hp⟩ := (extract_standsIn hds).1 d hd
  have hline : '\n' ∉ d.rawLine := newline_not_mem_of_mem_lines (List.mem_of_getElem? hget)
  have htoken : '\n' ∉ d.rawValue := by
    rw [hp.rawLine] at hline
    rw [hp.rawValue]
    exact fun hmem => hline (by simp [Layout.line, hmem])
  rw [hvalue]
  intro s hs
  rcases Literal.ofChars?_cases hread with ⟨b, -, hbool, -⟩ | ⟨t, -, htext, htrim⟩ | ⟨x, -, hx, -⟩
  · rw [hbool] at hs
    contradiction
  · rw [htext] at hs
    obtain rfl := Value.text.inj hs
    intro hmem
    apply htoken
    have hin : '\n' ∈ trim d.rawValue := by simp [htrim, hmem]
    exact mem_of_mem_trim hin
  · rw [hx] at hs
    cases x with
    | _ => contradiction

/-! ## Writing -/

theorem replaceBetween_endLine
    (count place : Nat) {line : List Char} {start stop : Nat} (hstart : start ≤ stop)
    (hstop : stop ≤ line.length) (middle : List Char) :
    replaceBetween (Text.endLine count place line) start stop middle =
      Text.endLine count place (replaceBetween line start stop middle) := by
  unfold Text.endLine
  split_ifs
  · have hlength : stop ≤ (line ++ ['\r']).length := by
      rw [List.length_append]
      omega
    unfold replaceBetween
    rw [clip_natCast hlength, clip_natCast (Nat.le_trans hstart hlength), clip_natCast hstop,
      clip_natCast (Nat.le_trans hstart hstop), List.take_append_of_le_length (by omega),
      List.drop_append_of_le_length hstop, ← List.append_assoc]
  · rfl

/-- The line of an edited value is rendered in front of its carriage return. -/
theorem render_endLine
    (count : Nat) {d : Descriptor} {p : Layout} (hp : d.StandsFor p) :
    (d.endLine count).render = d.render.map (Text.endLine count d.line.toNat) := by
  have hlength : p.front.length + p.literal.length ≤ d.rawLine.length := by
    rw [hp.rawLine]
    exact p.length_front_le
  have hreplaced := replaceBetween_endLine count d.line.toNat
    (Nat.le_add_right p.front.length p.literal.length) hlength
  rw [← hp.valueStart, ← hp.valueEnd] at hreplaced
  unfold Descriptor.render
  rw [d.isUnchanged_endLine, d.literal_endLine]
  split_ifs
  · rfl
  · cases d.literal with
    | error failure => rfl
    | ok s => exact congrArg Except.ok (hreplaced s.toList)

theorem writeLine_endLines
    {ls : List (List Char)} (hcount : ls.length = count) {d : Descriptor} {place : Nat}
    (hline : d.line = place) {p : Layout} (hp : d.StandsFor p) :
    writeLine (endLines ls) (d.endLine count) = (writeLine ls d).map endLines := by
  have hrender := render_endLine count hp
  rw [hline, Int.toNat_natCast] at hrender
  have hat : (endLines ls)[place]? = some (d.endLine count).rawLine ↔
      ls[place]? = some d.rawLine := by
    rw [getElem?_endLines, Option.map_eq_some_iff, Descriptor.endLine, hline, hcount]
    simp [endLine_inj]
  unfold writeLine
  rw [length_endLines, d.line_endLine, d.name_endLine]
  split_ifs with hpast
  · rfl
  · have hlt : place < ls.length := by omega
    rw [hline, place?_natCast hlt]
    dsimp only
    rw [if_congr hat rfl rfl, hrender]
    split_ifs
    · cases d.render with
      | error failure => rfl
      | ok line =>
        have hset := endLines_set ls place line
        rw [hcount] at hset
        exact congrArg Except.ok hset.symm
    · rfl

theorem writeLine_cases
    {ls written : List (List Char)} {d : Descriptor} (h : writeLine ls d = .ok written) :
    ∃ place line, d.render = .ok line ∧ written = ls.set place line := by
  unfold writeLine at h
  split_ifs at h
  split at h
  · contradiction
  · next place hplace =>
    split_ifs at h
    obtain ⟨line, hline, h⟩ := Failure.bind_eq_ok_iff.mp h
    exact ⟨place, line, hline, (Except.ok.inj h).symm⟩

/-- A line with a value on one line in it is one line. -/
theorem newline_not_mem_render
    {d : Descriptor} (hvalue : d.value.toValue.IsOneLine) (hraw : '\n' ∉ d.rawLine)
    {line : List Char} (h : d.render = .ok line) :
    '\n' ∉ line := by
  unfold Descriptor.render at h
  split_ifs at h
  · obtain rfl := Except.ok.inj h
    exact hraw
  · obtain ⟨s, hs, h⟩ := Failure.bind_eq_ok_iff.mp h
    obtain rfl := Except.ok.inj h
    unfold replaceBetween
    simp only [List.mem_append, not_or]
    exact ⟨⟨fun hmem => hraw (List.mem_of_mem_take hmem), newline_not_mem_literal hvalue hs⟩,
      fun hmem => hraw (List.mem_of_mem_drop hmem)⟩

/-- Lines that are written stay as many, and each of them stays one line. -/
theorem newline_not_mem_of_foldlM_writeLine
    {ls written : List (List Char)}
    (hds : ∀ d ∈ ds, ∀ line, d.render = .ok line → '\n' ∉ line) (hls : ∀ line ∈ ls, '\n' ∉ line)
    (h : ds.foldlM writeLine ls = .ok written) :
    written.length = ls.length ∧ ∀ line ∈ written, '\n' ∉ line := by
  induction ds generalizing ls with
  | nil =>
    obtain rfl := Except.ok.inj h
    exact ⟨rfl, hls⟩
  | cons d ds ih =>
    obtain ⟨hd, hds⟩ := List.forall_mem_cons.mp hds
    rw [List.foldlM_cons] at h
    obtain ⟨later, hlater, h⟩ := Failure.bind_eq_ok_iff.mp h
    obtain ⟨place, line, hline, rfl⟩ := writeLine_cases hlater
    have hlater : ∀ other ∈ ls.set place line, '\n' ∉ other := by
      intro other hother
      rcases List.mem_or_eq_of_mem_set hother with hother | rfl
      · exact hls other hother
      · exact hd other hline
    obtain ⟨hlength, hwritten⟩ := ih hds hlater h
    exact ⟨by rw [hlength, List.length_set], hwritten⟩

/-- Descriptors that stand for assignments are written into the same lines. -/
theorem foldlM_writeLine_endLines
    {ls : List (List Char)} (hcount : ls.length = count)
    (hstand : ∀ d ∈ ds, ∃ place : Nat, d.line = place ∧ ∃ p : Layout, d.StandsFor p) :
    (ds.map (Descriptor.endLine count)).foldlM writeLine (endLines ls) =
      (ds.foldlM writeLine ls).map endLines := by
  induction ds generalizing ls with
  | nil => rfl
  | cons d ds ih =>
    obtain ⟨⟨place, hline, p, hp⟩, hstand⟩ := List.forall_mem_cons.mp hstand
    rw [List.map_cons, List.foldlM_cons, List.foldlM_cons, writeLine_endLines hcount hline hp]
    cases hwritten : writeLine ls d with
    | error failure => rfl
    | ok later =>
      obtain ⟨place, line, -, rfl⟩ := writeLine_cases hwritten
      exact ih (by rw [List.length_set, hcount]) hstand

/-- Edited values on one line are written into the same text. -/
theorem synthesize_crlf
    {source : List Char} (hds : extract source = .ok ds) (hedited : Edited ds edited)
    (hvalues : ∀ d ∈ edited, d.value.toValue.IsOneLine) :
    synthesize (crlf source) (edited.map (Descriptor.endLine (lines source).length)) =
      (synthesize source edited).map crlf := by
  have hstand (d : Descriptor) (hd : d ∈ edited) :
      ∃ place : Nat, d.line = place ∧ ∃ p : Layout, d.StandsFor p := by
    obtain ⟨place, hline, -, hp⟩ := hedited.mem_standsIn hds hd
    exact ⟨place, hline, hp⟩
  have hrendered (d : Descriptor) (hd : d ∈ edited) (line : List Char)
      (hline : d.render = .ok line) : '\n' ∉ line := by
    obtain ⟨place, -, hget, -⟩ := hedited.mem_standsIn hds hd
    have hraw := newline_not_mem_of_mem_lines (List.mem_of_getElem? hget)
    exact newline_not_mem_render (hvalues d hd) hraw hline
  unfold synthesize
  rw [lines_crlf, foldlM_writeLine_endLines rfl hstand]
  cases hwritten : edited.foldlM writeLine (lines source) with
  | error failure => rfl
  | ok written =>
    obtain ⟨hlength, hfree⟩ := newline_not_mem_of_foldlM_writeLine hrendered
      (fun line hline => newline_not_mem_of_mem_lines hline) hwritten
    have hne : written ≠ [] := by
      rintro rfl
      exact lines_ne_nil source (List.eq_nil_of_length_eq_zero hlength.symm)
    exact congrArg Except.ok (crlf_unlines hne hfree).symm

/-! ## The whole pipeline -/

theorem mapM_toOverride_map_endLine (ds : List Descriptor) :
    (ds.map (Descriptor.endLine count)).mapM Descriptor.toOverride =
      ds.mapM Descriptor.toOverride := by
  rw [List.mapM_map]
  rfl

theorem customize_crlf
    (source : List Char) (hedits : ∀ edit ∈ edits, edit.2.IsOneLine) :
    customize (crlf source) edits =
      (customize source edits).map fun (text, overrides) => (crlf text, overrides) := by
  unfold customize
  rw [extract_crlf]
  cases hds : extract source with
  | error failure => rfl
  | ok ds =>
    simp only [Except.map, bind, Except.bind, applyEdits_map_endLine]
    cases happly : applyEdits ds edits with
    | mk edited refusal =>
      cases refusal with
      | some failure => rfl
      | none =>
        have hedited := edited_of_applyEdits happly
        have hvalues := isOneLine_of_applyInOrder hedits
          (fun d hd => isOneLine_of_mem_extract hds hd) (applyEdits_eq_none_iff.mp happly).2
        dsimp only
        rw [synthesize_crlf hds hedited hvalues, mapM_toOverride_map_endLine]
        cases synthesize source edited with
        | error failure => rfl
        | ok text =>
          cases edited.mapM Descriptor.toOverride with
          | error failure => rfl
          | ok overrides => rfl

/-- With a carriage return in front of every newline the same assignments are found, each with the
carriage return at the end of its line, and the text is customized to the same text, up to the
carriage returns, with the same overrides.  A text that is taken as a value must be on one line: a
newline in it would be written without a carriage return. -/
theorem line_ends_do_not_matter (source : List Char) :
    extract (crlf source) =
      (extract source).map (List.map (Descriptor.endLine (lines source).length)) ∧
    ∀ edits : Edits, (∀ edit ∈ edits, edit.2.IsOneLine) →
      customize (crlf source) edits =
        (customize source edits).map fun (text, overrides) => (crlf text, overrides) :=
  ⟨extract_crlf source, fun _ => customize_crlf source⟩

/-- A range, a section between block marks and a label that ends in a backslash. -/
def plate : List Char :=
  "wide = 2; // [0:9]\n/* [Look] */\nlabel = \"ab\\\\\";\nmodule m() \x7b\x7d".toList

/-- The comment and the block marks are read in front of the carriage return. -/
theorem line_ends_do_not_matter_of_plate :
    (∀ edit ∈ [("label", Value.text "c"), ("wide", .int 3)], edit.2.IsOneLine) ∧
    (extract (crlf plate)).map (List.map (·.rawLine)) =
      .ok ["wide = 2; // [0:9]\r".toList, "label = \"ab\\\\\";\r".toList] ∧
    customize (crlf plate) [("label", .text "c"), ("wide", .int 3)] =
      .ok ("wide = 3; // [0:9]\r\n/* [Look] */\r\nlabel = \"c\";\r\nmodule m() \x7b\x7d".toList,
        [⟨"wide", .int 3, .number⟩, ⟨"label", .text "c", .text⟩]) := by
  have hedits : ∀ edit ∈ [("label", Value.text "c"), ("wide", .int 3)], edit.2.IsOneLine := by
    simp only [List.forall_mem_cons]
    refine ⟨?_, nofun, nofun⟩
    rintro s ⟨⟩
    decide
  obtain ⟨hextract, hcustomize⟩ := line_ends_do_not_matter plate
  refine ⟨hedits, ?_, ?_⟩
  · rw [hextract]
    exact Failure.eq_ok_of_toOption (by decide +kernel)
  · rw [hcustomize _ hedits]
    exact Failure.eq_ok_of_toOption (by decide +kernel)

end Source

end SolidWorkshop
