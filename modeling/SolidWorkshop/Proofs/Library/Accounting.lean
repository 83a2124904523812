import SolidWorkshop.Proofs.Library.Resolution

/-!
# What a resolution tells of its downloads

After every batch the log is told how many of the listed files have been requested.  The count of
those that could not be downloaded is not kept: it is what the files that were found are short of
the listing, so that a file that is listed twice is missing once although nothing failed.
-/

namespace SolidWorkshop

namespace Library

variable {c : Config} {client : Client} {server : Server} {entries : List Json.Tree}
  {paths : List Path}

/-! ## Sizes of batches -/

theorem pathOf?_withBatchSize (c : Config) (size : Int) :
    { c with batchSize := size }.pathOf? = c.pathOf? := rfl

theorem Config.Lists.withBatchSize
    (h : c.Lists client server entries) (size : Int) :
    { c with batchSize := size }.Lists client server entries := h

theorem Serves.withBatchSize
    (h : Serves c client server paths) (size : Int) :
    Serves { c with batchSize := size } client server paths := h

/-! ## The lines of the log -/

/-- The line for a batch, after which some of the files have been requested. -/
def Config.progressLine (c : Config) (total done : Nat) : LogLine :=
  .info (c.name ++ ": " ++ toString done ++ "/" ++ toString total ++ " files")

/-- The warning that some files could not be downloaded, if any could not. -/
def Config.lostLines (c : Config) (count : Nat) : List LogLine :=
  if count = 0 then []
  else [.warning (c.name ++ ": " ++ toString count ++ " file(s) could not be downloaded.")]

/-- The lines for a listing, from the first request to the first batch. -/
def Config.openingLines (c : Config) (total : Nat) : List LogLine :=
  [.info ("Resolving " ++ c.label ++ "..."),
    .info (c.name ++ ": downloading " ++ toString total ++ " files...")]

/-- The line for a library that has been found. -/
def Config.readyLine (c : Config) (count : Nat) : LogLine :=
  .success (c.name ++ " ready (" ++ toString count ++ " files).")

theorem toString_inj
    {m n : Nat} :
    toString m = toString n ↔ m = n := by
  refine ⟨fun h => ?_, congrArg _⟩
  have hdigits : Nat.toDigits 10 m = Nat.toDigits 10 n := by
    rw [← Nat.toList_repr, ← Nat.toList_repr, ← Nat.toString_eq_repr, ← Nat.toString_eq_repr, h]
  rw [← Nat.ofDigitChars_ten_toDigits (n := m), hdigits, Nat.ofDigitChars_ten_toDigits]

theorem Config.lostLines_inj
    {m n : Nat} :
    c.lostLines m = c.lostLines n ↔ m = n := by
  refine ⟨fun h => ?_, congrArg _⟩
  unfold Config.lostLines at h
  split_ifs at h with hm hn hn
  · rw [hm, hn]
  · have htext := congrArg LogLine.text (List.cons.inj h).1
    simp only [LogLine.warning, String.append_left_inj, String.append_right_inj] at htext
    exact toString_inj.mp htext

/-! ## The counts of the batches -/

/-- How many of some items have been dealt with after each batch. -/
def counts (size total : Nat) : List Nat :=
  (List.range ((total + size - 1) / size)).map fun i => min ((i + 1) * size) total

theorem counts_zero
    {size : Nat} (hsize : 0 < size) :
    counts size 0 = [] := by
  rw [counts, Nat.zero_add, Nat.div_eq_of_lt (by omega), List.range_zero, List.map_nil]

/-- The first batch, and the batches of the rest. -/
theorem counts_pos
    {size total : Nat} (hsize : 0 < size) (htotal : 0 < total) :
    counts size total =
      min size total :: (counts size (total - size)).map (min size total + ·) := by
  have hnumber : (total + size - 1) / size = (total - size + size - 1) / size + 1 := by
    rw [← Nat.add_div_right _ hsize]
    rcases Nat.le_total size total with hle | hle
    · congr 1
      omega
    · rw [Nat.sub_eq_zero_of_le hle, Nat.div_eq_of_lt_le (k := 1) (by omega) (by omega),
        Nat.div_eq_of_lt_le (k := 1) (by omega) (by omega)]
  rw [counts, hnumber, List.range_succ_eq_map, List.map_cons, List.map_map, counts, List.map_map,
    Nat.zero_add, Nat.one_mul]
  congr 1
  apply List.map_congr_left
  intro i _
  simp only [Function.comp_apply, Nat.succ_eq_add_one, Nat.add_mul, Nat.one_mul]
  omega

/-- With every batch the count grows, since a batch is only begun when some files are left. -/
theorem pairwise_counts (size total : Nat) : (counts size total).Pairwise (· < ·) := by
  rw [counts, List.pairwise_map]
  refine List.pairwise_lt_range.imp_of_mem ?_
  intro i j _ hj hlt
  rcases Nat.eq_zero_or_pos size with rfl | hsize
  · rw [Nat.div_zero, List.range_zero] at hj
    contradiction
  · have hleft : j * size < total := by
      have hbatch := (Nat.le_div_iff_mul_le hsize).mp (Nat.succ_le_of_lt (List.mem_range.mp hj))
      rw [Nat.succ_mul] at hbatch
      omega
    have hnext : (j + 1) * size = j * size + size := Nat.succ_mul _ _
    have hearlier : (i + 1) * size ≤ j * size := Nat.mul_le_mul_right size hlt
    omega

/-- The last count is that of all items. -/
theorem getLast?_counts
    {size : Nat} (hsize : 0 < size) (total : Nat) :
    (counts size total).getLast? = if total = 0 then none else some total := by
  split_ifs with hzero
  · rw [hzero, counts_zero hsize, List.getLast?_nil]
  · generalize hnumber : (total + size - 1) / size = number
    have henough : total ≤ number * size := by
      have hdiv := Nat.div_add_mod (total + size - 1) size
      have hmod := Nat.mod_lt (total + size - 1) hsize
      rw [hnumber, Nat.mul_comm] at hdiv
      omega
    have hpos : number ≠ 0 := by
      rintro rfl
      omega
    rw [counts, hnumber, List.getLast?_map, List.getLast?_range, if_neg hpos, Option.map_some,
      Nat.sub_add_cancel (Nat.one_le_iff_ne_zero.mpr hpos), Nat.min_eq_right henough]

theorem length_batches
    {α : Type} {size : Nat} (hsize : 0 < size) {fuel : Nat} {items : List α}
    (hfuel : items.length ≤ fuel) :
    (batches size fuel items).length = (counts size items.length).length := by
  induction fuel generalizing items with
  | zero =>
    obtain rfl := List.eq_nil_of_length_eq_zero (Nat.le_zero.mp hfuel)
    rw [List.length_nil, counts_zero hsize]
    rfl
  | succ fuel ih =>
    rcases batches_cases size hfuel with ⟨rfl, hnone⟩ | ⟨hne, less, hless, hcut⟩
    · rw [hnone]
      exact (congrArg List.length (counts_zero hsize)).symm
    · obtain rfl := Nat.succ.inj hless
      have hpos := List.length_pos_iff.mpr hne
      rw [hcut, counts_pos hsize hpos, List.length_cons, List.length_cons, List.length_map,
        ih (by rw [List.length_drop]; omega), List.length_drop]

/-- Batch after batch the log is told the count. -/
theorem Serves.downloadAll_log
    {fuel : Nat} (h : Serves c client server paths) (hfuel : paths.length ≤ fuel) (total done : Nat)
    (files : Files) :
    (downloadAll c client server total done files (batches c.batch fuel paths)).log =
      (counts c.batch paths.length).map fun count => c.progressLine total (done + count) := by
  induction fuel generalizing paths done files with
  | zero =>
    obtain rfl := List.eq_nil_of_length_eq_zero (Nat.le_zero.mp hfuel)
    rw [List.length_nil, counts_zero c.batch_pos]
    rfl
  | succ fuel ih =>
    rcases batches_cases c.batch hfuel with ⟨rfl, hnone⟩ | ⟨hne, less, hless, hcut⟩
    · rw [hnone, List.length_nil, counts_zero c.batch_pos]
      rfl
    · obtain rfl := Nat.succ.inj hless
      have hpos := List.length_pos_iff.mpr hne
      have hbatch : Serves c client server (paths.take c.batch) := fun path hpath =>
        h path (List.mem_of_mem_take hpath)
      have hrest : Serves c client server (paths.drop c.batch) := fun path hpath =>
        h path (List.mem_of_mem_drop hpath)
      rw [hcut, hbatch.downloadAll_cons, counts_pos c.batch_pos hpos, List.map_cons, List.map_map]
      dsimp only
      rw [ih hrest (by have hbatch := c.batch_pos; rw [List.length_drop]; omega),
        List.length_drop, List.length_take]
      refine congrArg₂ List.cons rfl ?_
      apply List.map_congr_left
      intro count _
      rw [Function.comp_apply, Nat.add_assoc]

/-! ## All lines of a resolution -/

theorem closing_eq (total : Nat) (files : Files) :
    closing c total files =
      c.lostLines (total - files.length) ++ [c.readyLine files.length] := rfl

/-- With a listing the log is told of it, then of the batches, and last of what was found. -/
theorem lines_of_ok
    (hlist : (list c client server).2 = .ok paths) {files : Files}
    (hfound : (downloadAll c client server paths.length 0 []
      (batches c.batch paths.length paths)).outcome = .ok files) :
    (resolve c client server).lines =
      c.openingLines paths.length ++
        (downloadAll c client server paths.length 0 [] (batches c.batch paths.length paths)).log ++
        closing c paths.length files := by
  unfold resolve
  dsimp only
  rw [hlist]
  dsimp only
  rw [hfound]
  dsimp only
  split
  · next hnone =>
    rw [List.getLast?_eq_none_iff.mp hnone, List.append_nil]
    rfl
  · next last hlast =>
    obtain ⟨log, hlog⟩ := List.getLast?_eq_some_iff.mp hlast
    rw [hlog, List.dropLast_concat, List.append_assoc, List.append_assoc]
    rfl

/-! ## Repeated paths -/

section Repeated

variable {α : Type} [DecidableEq α] [BEq α] [LawfulBEq α]

theorem length_eraseDups_le (xs : List α) : xs.eraseDups.length ≤ xs.length := by
  induction xs using List.reverseRecOn with
  | nil => exact Nat.le_refl _
  | append_singleton xs x ih =>
    rw [eraseDups_concat]
    split_ifs
    · rw [List.length_append]
      omega
    · rw [List.length_append, List.length_append]
      exact Nat.add_le_add_right ih _

/-- Nothing is lost exactly if nothing is repeated. -/
theorem length_eraseDups_eq_iff (xs : List α) :
    xs.eraseDups.length = xs.length ↔ xs.Nodup := by
  induction xs using List.reverseRecOn with
  | nil => exact iff_of_true rfl List.nodup_nil
  | append_singleton xs x ih =>
    have hle := length_eraseDups_le xs
    have hnodup : (xs ++ [x]).Nodup ↔ xs.Nodup ∧ x ∉ xs := by
      rw [← List.concat_eq_append, List.nodup_concat, and_comm]
    rw [eraseDups_concat, hnodup, ← ih, List.length_append, List.length_singleton]
    split_ifs with hmem
    · exact iff_of_false (by omega) fun h => h.2 (List.mem_eraseDups.mp hmem)
    · rw [List.length_append, List.length_singleton]
      exact ⟨fun h => ⟨Nat.succ.inj h, mt List.mem_eraseDups.mpr hmem⟩,
        fun h => congrArg Nat.succ h.1⟩

end Repeated

/-- What the files that were found are short of the requests: the requests that failed, and those
whose path had been found before. -/
theorem length_sub_length_collect (found : List (Path × Option ByteArray)) :
    let failed := found.filter (·.2.isNone)
    let fetched := (found.filter (·.2.isSome)).map (·.1)
    found.length - (collect [] found).length =
      failed.length + (fetched.length - fetched.eraseDups.length) := by
  intro failed fetched
  have hfiles : (collect [] found).length = fetched.eraseDups.length := by
    rw [← List.length_map (·.1), keys_collect]
  have hall : found.length = failed.length + fetched.length := by
    rw [List.length_map, Nat.add_comm, List.length_eq_length_filter_add (·.2.isSome)]
    simp [failed]
  have hle := length_eraseDups_le fetched
  omega

/-! ## The whole log -/

/-- The warnings among the lines of a resolution. -/
def Resolution.warnings (r : Resolution) : List LogLine :=
  r.lines.filter fun line => line.level = .warning

theorem filter_warning_lostLines (count : Nat) :
    (c.lostLines count).filter (fun line => line.level = .warning) = c.lostLines count := by
  unfold Config.lostLines
  split_ifs
  · rfl
  · rfl

/-- The log is told of the listing, of every batch, of the files that are missing, and of those that
were found. -/
theorem lines_eq
    (hlists : c.Lists client server entries)
    (hserves : Serves c client server (entries.filterMap c.pathOf?)) :
    let paths := entries.filterMap c.pathOf?
    let failed := paths.filter fun path => (body? c client server path).isNone
    let fetched := paths.filter fun path => (body? c client server path).isSome
    (resolve c client server).lines =
      c.openingLines paths.length ++
        (counts c.batch paths.length).map (c.progressLine paths.length) ++
        c.lostLines (failed.length + (fetched.length - fetched.eraseDups.length)) ++
        [c.readyLine fetched.eraseDups.length] := by
  intro paths failed fetched
  have hflat : (batches c.batch paths.length paths).flatten = paths :=
    flatten_batches c.batch_pos (Nat.le_refl _)
  obtain ⟨houtcome, -⟩ := downloadAll_eq (by rw [hflat]; exact hserves) paths.length 0 []
  rw [hflat] at houtcome
  have hfiles : (collect [] (bodies c client server paths)).length = fetched.eraseDups.length := by
    rw [← List.length_map (·.1), keys_collect_bodies]
  have hmissing := length_sub_length_collect (bodies c client server paths)
  dsimp only at hmissing
  rw [fetched_bodies, hfiles, bodies, List.length_map, List.filter_map, List.length_map] at hmissing
  have hlog := hserves.downloadAll_log (Nat.le_refl _) paths.length 0 []
  simp only [Nat.zero_add] at hlog
  rw [lines_of_ok hlists.list_eq houtcome, hlog, closing_eq, hfiles, hmissing,
    List.append_assoc _ (c.lostLines _)]
  rfl

/-- The log of a resolution is told of every batch, with counts that grow up to that of all listed
files, and is warned of as many files as failed or were listed again after they had been fetched.
So the warning is right exactly if no path that could be downloaded is listed twice. -/
theorem downloads_are_told_exactly
    (hlists : c.Lists client server entries)
    (hserves : Serves c client server (entries.filterMap c.pathOf?)) :
    let paths := entries.filterMap c.pathOf?
    let total := paths.length
    let failed := paths.filter fun path => (body? c client server path).isNone
    let fetched := paths.filter fun path => (body? c client server path).isSome
    let repeated := fetched.length - fetched.eraseDups.length
    (resolve c client server).lines =
      c.openingLines total ++ (counts c.batch total).map (c.progressLine total) ++
        c.lostLines (failed.length + repeated) ++ [c.readyLine fetched.eraseDups.length] ∧
    (counts c.batch total).length = (batches c.batch total paths).length ∧
    (counts c.batch total).Pairwise (· < ·) ∧
    (counts c.batch total).getLast? = (if total = 0 then none else some total) ∧
    ((resolve c client server).warnings = c.lostLines failed.length ↔ fetched.Nodup) := by
  intro paths total failed fetched repeated
  have hlines := lines_eq hlists hserves
  refine ⟨hlines, (length_batches c.batch_pos (Nat.le_refl _)).symm, pairwise_counts _ _,
    getLast?_counts c.batch_pos _, ?_⟩
  have hprogress : ((counts c.batch total).map (c.progressLine total)).filter
      (fun line => line.level = .warning) = [] := by
    rw [List.filter_eq_nil_iff]
    intro line hline
    obtain ⟨count, -, rfl⟩ := List.mem_map.mp hline
    exact nofun
  have hwarnings : (resolve c client server).warnings = c.lostLines (failed.length + repeated) := by
    rw [Resolution.warnings, hlines, List.filter_append, List.filter_append, List.filter_append,
      hprogress, filter_warning_lostLines]
    exact List.append_nil _
  have hle := length_eraseDups_le fetched
  rw [hwarnings, Config.lostLines_inj, ← length_eraseDups_eq_iff]
  omega

/-- One file of four is missing, and another one is listed twice. -/
theorem downloads_are_told_exactly_of_shelf :
    ∃ entries, shelf.Lists shelfClient shelfServer entries ∧
      Serves shelf shelfClient shelfServer (entries.filterMap shelf.pathOf?) ∧
      (resolve { shelf with batchSize := 3 } shelfClient shelfServer).lines =
        [.info "Resolving BOSL2@master...", .info "BOSL2: downloading 4 files...",
          .info "BOSL2: 3/4 files", .info "BOSL2: 4/4 files",
          .warning "BOSL2: 2 file(s) could not be downloaded.",
          .success "BOSL2 ready (2 files)."] ∧
      (resolve { shelf with batchSize := 3 } shelfClient shelfServer).warnings ≠
        shelf.lostLines 1 := by
  obtain ⟨entries, hlists, hpaths⟩ := exists_lists_shelf
  have hserves : Serves shelf shelfClient shelfServer (entries.filterMap shelf.pathOf?) := by
    rw [hpaths]
    exact serves_shelf
  obtain ⟨hlines, -, -, -, hright⟩ :=
    downloads_are_told_exactly (hlists.withBatchSize 3) (hserves.withBatchSize 3)
  rw [pathOf?_withBatchSize, hpaths] at hlines hright
  refine ⟨entries, hlists, hserves, hlines.trans (by decide +kernel), fun h => ?_⟩
  have hnodup := hright.mp (h.trans (by decide +kernel))
  revert hnodup
  decide +kernel

/-- The listing names its only file twice. -/
def twinServer : Server where
  routes :=
    [("http://h/list", .reply 200 none
        "\x7b\"files\": [\"/gear.scad\", \"gear.scad\"]\x7d".toUTF8),
      ("http://h/gear.scad", .reply 200 none "cube(1);".toUTF8)]

/-- The path that is listed twice. -/
def twinPaths : List Path :=
  ["gear.scad", "gear.scad"].map Text.points

/-- A warning is told although nothing failed. -/
theorem not_forall_warnings_eq_lostLines :
    ¬∀ (c : Config) (client : Client) (server : Server) (entries : List Json.Tree),
      c.Lists client server entries →
      Serves c client server (entries.filterMap c.pathOf?) →
      (resolve c client server).warnings = c.lostLines
        ((entries.filterMap c.pathOf?).filter fun path =>
          (body? c client server path).isNone).length := by
  intro hall
  have hlist : (list shelf shelfClient twinServer).2 = .ok twinPaths :=
    Failure.eq_ok_of_toOption (by decide +kernel)
  obtain ⟨entries, hlists, hpaths⟩ := Config.exists_lists_of_list_eq_ok hlist
  have hserves : Serves shelf shelfClient twinServer twinPaths :=
    serves_of_forall_toOption (by decide +kernel)
  have hwarnings := hall shelf shelfClient twinServer entries hlists (hpaths ▸ hserves)
  rw [hpaths] at hwarnings
  revert hwarnings
  decide +kernel

end Library

end SolidWorkshop
