import Mathlib.Data.List.Infix
import SolidWorkshop.Library.Resolution
import SolidWorkshop.Proofs.Lookup

/-!
# The files of a library

A listing names the files of a library.  Those whose names end as sources do are downloaded, batch
after batch, and what could be downloaded is found under its path, in the order in which the paths
are listed first.  How the list is cut into batches plays no part.
-/

namespace SolidWorkshop

theorem keys_setEntry
    {κ α : Type} [DecidableEq κ] [BEq κ] [LawfulBEq κ] (key : κ) (value : α)
    (entries : List (κ × α)) :
    (setEntry key value entries).map (·.1) =
      if key ∈ entries.map (·.1) then entries.map (·.1) else entries.map (·.1) ++ [key] := by
  induction entries with
  | nil => rfl
  | cons e entries ih =>
    obtain ⟨first, entry⟩ := e
    by_cases hfirst : first = key
    · simp [setEntry, hfirst]
    · rw [setEntry, if_neg hfirst, List.map_cons, ih]
      simp only [List.map_cons, List.mem_cons, Ne.symm hfirst, false_or]
      split_ifs
      · rfl
      · rfl

namespace Library

/-! ## Listings -/

/-- The name that an entry of a listing gives. -/
inductive Names : Json.Tree → List Text.Point → Prop
  | plain (name : List Text.Point) : Names (.text name) name
  | field {fields : List (List Text.Point × Json.Tree)} {name : List Text.Point}
    (h : fields.lookup (Text.points "name") = some (.text name)) :
    Names (.dict fields) name

/-- An entry of a listing names a source, which is found at a path. -/
def Config.Keeps (c : Config) (entry : Json.Tree) (path : Path) : Prop :=
  ∃ name, Names entry name ∧ Text.points c.fileSuffix <:+ name ∧
    path = name.dropWhile (· == .char '/')

/-- The server has a listing with some entries. -/
def Config.Lists (c : Config) (client : Client) (server : Server) (entries : List Json.Tree) :
    Prop :=
  ∃ address body listing, fill c.listingUrl c.fields = .ok address ∧
    (client.fetch server address).result = .ok body ∧ Json.readTree body = .ok listing ∧
    listing.get? "files" = some (.list entries)

/-- The body of a file, if it can be downloaded. -/
def body? (c : Config) (client : Client) (server : Server) (path : Path) : Option ByteArray :=
  (download c client server path).2.toOption.join

/-- The files of a library that could be downloaded. -/
structure Delivers (c : Config) (client : Client) (server : Server) (paths : List Path)
    (files : Files) : Prop where
  /-- Each path stands where its first entry stands in the listing. -/
  order : files.map (·.1) = (paths.filter fun path => (body? c client server path).isSome).eraseDups
  found : ∀ path body, files.lookup path = some body ↔
    path ∈ paths ∧ (download c client server path).2 = .ok (some body)

section Listing

variable {c : Config} {client : Client} {server : Server} {entries : List Json.Tree}

/-- The path of a name, if that ends as the names of sources do. -/
theorem pathOf?_text (name : List Text.Point) :
    c.pathOf? (.text name) =
      if (Text.points c.fileSuffix).isSuffixOf name then
        some (name.dropWhile (· == .char '/'))
      else none := rfl

/-- Whatever an entry is, its path is that of the name it gives. -/
theorem pathOf?_of_names
    {entry : Json.Tree} {name : List Text.Point} (h : Names entry name) :
    c.pathOf? entry = c.pathOf? (.text name) := by
  cases h with
  | plain => rfl
  | field h => simp only [Config.pathOf?, Json.Tree.get?, h, Option.getD_some]

theorem exists_names_of_pathOf?
    {entry : Json.Tree} {path : Path} (h : c.pathOf? entry = some path) :
    ∃ name, Names entry name := by
  cases entry with
  | text name => exact ⟨name, .plain name⟩
  | dict fields =>
    cases hfield : fields.lookup (Text.points "name") with
    | none =>
      simp only [Config.pathOf?, Json.Tree.get?, hfield, Option.getD_none] at h
      contradiction
    | some value =>
      cases value with
      | text name => exact ⟨name, .field hfield⟩
      | _ =>
        simp only [Config.pathOf?, Json.Tree.get?, hfield, Option.getD_some] at h
        contradiction
  | _ => contradiction

theorem Config.pathOf?_eq_some_iff
    {entry : Json.Tree} {path : Path} :
    c.pathOf? entry = some path ↔ c.Keeps entry path := by
  have htext : ∀ name, c.pathOf? (.text name) = some path ↔
      Text.points c.fileSuffix <:+ name ∧ path = name.dropWhile (· == .char '/') := by
    intro name
    rw [pathOf?_text, Option.ite_none_right_eq_some, Option.some.injEq, List.isSuffixOf_iff_suffix,
      eq_comm (a := path)]
  constructor
  · intro h
    obtain ⟨name, hname⟩ := exists_names_of_pathOf? h
    rw [pathOf?_of_names hname] at h
    exact ⟨name, hname, (htext name).mp h⟩
  · rintro ⟨name, hname, hkept⟩
    rw [pathOf?_of_names hname]
    exact (htext name).mpr hkept

/-- With a listing the paths of its sources are known. -/
theorem Config.Lists.list_eq
    (h : c.Lists client server entries) :
    (list c client server).2 = .ok (entries.filterMap c.pathOf?) := by
  obtain ⟨address, body, listing, hfill, hfetch, hread, hfiles⟩ := h
  rw [list, hfill]
  dsimp only
  rw [hfetch]
  dsimp only
  rw [readListing, hread]
  dsimp only
  rw [paths, hfiles]

theorem Config.exists_of_paths_eq_ok
    {listing : Json.Tree} {paths : List Path} (h : c.paths listing = .ok paths) :
    ∃ entries, listing.get? "files" = some (.list entries) ∧
      entries.filterMap c.pathOf? = paths := by
  unfold Config.paths at h
  split at h
  · next entries hfiles => exact ⟨entries, hfiles, Except.ok.inj h⟩
  · contradiction

/-- Paths are known only from a listing. -/
theorem Config.exists_lists_of_list_eq_ok
    {paths : List Path} (h : (list c client server).2 = .ok paths) :
    ∃ entries, c.Lists client server entries ∧ entries.filterMap c.pathOf? = paths := by
  unfold list at h
  cases hfill : fill c.listingUrl c.fields with
  | error failure =>
    rw [hfill] at h
    contradiction
  | ok address =>
    rw [hfill] at h
    dsimp only at h
    cases hfetch : (client.fetch server address).result with
    | error cause =>
      rw [hfetch] at h
      cases cause with
      | exchange reason => contradiction
      | refused failure => contradiction
    | ok body =>
      rw [hfetch] at h
      dsimp only at h
      unfold Config.readListing at h
      cases hread : Json.readTree body with
      | error e =>
        rw [hread] at h
        contradiction
      | ok listing =>
        rw [hread] at h
        obtain ⟨entries, hfiles, hpaths⟩ := Config.exists_of_paths_eq_ok h
        exact ⟨entries, ⟨address, body, listing, hfill, hfetch, hread, hfiles⟩, hpaths⟩

end Listing

/-! ## Batches -/

theorem Config.batch_pos (c : Config) : 0 < c.batch :=
  Nat.lt_of_lt_of_le Nat.zero_lt_one (Nat.le_max_left _ _)

section Batches

variable {α β : Type}

/-- Items that are left are cut into a first batch and the batches of the rest. -/
theorem batches_cases
    (size : Nat) {fuel : Nat} {items : List α} (hfuel : items.length ≤ fuel) :
    items = [] ∧ batches size fuel items = [] ∨
      items ≠ [] ∧ ∃ less, fuel = less + 1 ∧
        batches size fuel items = items.take size :: batches size less (items.drop size) := by
  cases items with
  | nil =>
    refine Or.inl ⟨rfl, ?_⟩
    cases fuel with
    | zero => rfl
    | succ less => rfl
  | cons item items =>
    refine Or.inr ⟨nofun, ?_⟩
    cases fuel with
    | zero => simp at hfuel
    | succ less => exact ⟨less, rfl, rfl⟩

theorem flatten_batches
    {size : Nat} (hsize : 0 < size) {fuel : Nat} {items : List α} (hfuel : items.length ≤ fuel) :
    (batches size fuel items).flatten = items := by
  induction fuel generalizing items with
  | zero => rw [List.eq_nil_of_length_eq_zero (Nat.le_zero.mp hfuel), batches, List.flatten_nil]
  | succ fuel ih =>
    rcases batches_cases size hfuel with ⟨rfl, hnone⟩ | ⟨hne, less, hless, hcut⟩
    · rw [hnone, List.flatten_nil]
    · obtain rfl := Nat.succ.inj hless
      have hpos := List.length_pos_iff.mpr hne
      rw [hcut, List.flatten_cons, ih (by rw [List.length_drop]; omega), List.take_append_drop]

theorem firstFailure_map
    {xs : List α} {f : α → Except Failure β} {g : α → β} (h : ∀ x ∈ xs, f x = .ok (g x)) :
    firstFailure (xs.map f) = .ok (xs.map g) := by
  induction xs with
  | nil => rfl
  | cons x xs ih =>
    obtain ⟨hx, hxs⟩ := List.forall_mem_cons.mp h
    rw [List.map_cons, hx, firstFailure, ih hxs]
    rfl

end Batches

/-! ## What is collected -/

section Collect

variable {c : Config} {client : Client} {server : Server} {paths : List Path}

/-- The bodies that belong to some paths. -/
def bodies (c : Config) (client : Client) (server : Server) (paths : List Path) :
    List (Path × Option ByteArray) :=
  paths.map fun path => (path, body? c client server path)

theorem bodies_append (paths later : List Path) :
    bodies c client server (paths ++ later) =
      bodies c client server paths ++ bodies c client server later :=
  List.map_append

theorem collect_append (files : Files) (xs ys : List (Path × Option ByteArray)) :
    collect files (xs ++ ys) = collect (collect files xs) ys :=
  List.foldl_append

theorem collect_bodies_concat (path : Path) :
    collect [] (bodies c client server (paths ++ [path])) =
      (body? c client server path).elim (collect [] (bodies c client server paths)) fun body =>
        setEntry path body (collect [] (bodies c client server paths)) := by
  rw [bodies, List.map_append, collect_append]
  cases hbody : body? c client server path with
  | none => simp [collect, bodies, hbody]
  | some body => simp [collect, bodies, hbody]

theorem eraseDups_concat {α : Type} [DecidableEq α] [BEq α] [LawfulBEq α] (xs : List α) (x : α) :
    (xs ++ [x]).eraseDups =
      if x ∈ xs.eraseDups then xs.eraseDups else xs.eraseDups ++ [x] := by
  rw [List.eraseDups_append]
  split_ifs with hmem
  · simp [List.removeAll, List.mem_eraseDups.mp hmem]
  · simp [List.removeAll, mt List.mem_eraseDups.mpr hmem, List.eraseDups_cons]

/-- Whatever the requests brought, the files are those of the bodies, each path once. -/
theorem keys_collect (found : List (Path × Option ByteArray)) :
    (collect [] found).map (·.1) = ((found.filter (·.2.isSome)).map (·.1)).eraseDups := by
  induction found using List.reverseRecOn with
  | nil => rfl
  | append_singleton found entry ih =>
    obtain ⟨path, body⟩ := entry
    rw [collect_append, List.filter_append, List.map_append]
    cases body with
    | none => simpa [collect] using ih
    | some body =>
      change (setEntry path body (collect [] found)).map (·.1) = (_ ++ [path]).eraseDups
      rw [keys_setEntry, ih, eraseDups_concat]

theorem fetched_bodies (paths : List Path) :
    ((bodies c client server paths).filter (·.2.isSome)).map (·.1) =
      paths.filter fun path => (body? c client server path).isSome := by
  rw [bodies, List.filter_map, List.map_map]
  exact List.map_id _

theorem keys_collect_bodies (paths : List Path) :
    (collect [] (bodies c client server paths)).map (·.1) =
      (paths.filter fun path => (body? c client server path).isSome).eraseDups := by
  rw [keys_collect, fetched_bodies]

theorem lookup_collect_bodies (paths : List Path) (other : Path) :
    (collect [] (bodies c client server paths)).lookup other =
      if other ∈ paths then body? c client server other else none := by
  induction paths using List.reverseRecOn with
  | nil => rfl
  | append_singleton paths path ih =>
    rw [collect_bodies_concat]
    by_cases hother : other = path
    · obtain rfl := hother
      cases hbody : body? c client server other with
      | none => simp [ih, hbody]
      | some body => simp [lookup_setEntry_self]
    · have hmem : other ∈ paths ++ [path] ↔ other ∈ paths := by simp [hother]
      simp only [hmem]
      cases hbody : body? c client server path with
      | none => exact ih
      | some body => exact (lookup_setEntry_of_ne hother body _).trans ih

end Collect

/-! ## All batches -/

section Download

variable {c : Config} {client : Client} {server : Server} {paths : List Path}

/-- The files of some paths can be downloaded, or left out. -/
def Serves (c : Config) (client : Client) (server : Server) (paths : List Path) : Prop :=
  ∀ path ∈ paths, ∃ body, (download c client server path).2 = .ok body

theorem Serves.download_eq
    (h : Serves c client server paths) {path : Path} (hpath : path ∈ paths) :
    (download c client server path).2 = .ok (body? c client server path) := by
  obtain ⟨body, hbody⟩ := h path hpath
  rw [body?, hbody]
  rfl

theorem body?_eq_some_iff
    {path : Path} {body : ByteArray} :
    body? c client server path = some body ↔
      (download c client server path).2 = .ok (some body) := by
  unfold body?
  cases (download c client server path).2 with
  | error failure => simp [Except.toOption]
  | ok found => simp [Except.toOption]

/-- A batch of files that can be downloaded, or left out, and the batches after it. -/
theorem Serves.downloadAll_cons
    {batch : List Path} (h : Serves c client server batch) (total done : Nat) (files : Files)
    (rest : List (List Path)) :
    downloadAll c client server total done files (batch :: rest) =
      let later := downloadAll c client server total (done + batch.length)
        (collect files (bodies c client server batch)) rest
      ⟨.info (c.name ++ ": " ++ toString (done + batch.length) ++ "/" ++ toString total ++
          " files") :: later.log,
        (batch.flatMap fun path => (download c client server path).1) ++ later.requests,
        later.outcome⟩ := by
  have hbatch : firstFailure ((batch.map (download c client server)).map (·.2)) =
      .ok (batch.map (body? c client server)) := by
    rw [List.map_map]
    exact firstFailure_map fun path hpath => h.download_eq hpath
  have hzip : batch.zip (batch.map (body? c client server)) = bodies c client server batch :=
    List.map_prod_left_eq_zip.symm
  rw [downloadAll, hbatch]
  dsimp only
  rw [hzip, List.flatMap_map]

/-- Batch after batch all files are collected, each of them by one request. -/
theorem downloadAll_eq
    {cut : List (List Path)} (h : Serves c client server cut.flatten) (total done : Nat)
    (files : Files) :
    (downloadAll c client server total done files cut).outcome =
        .ok (collect files (bodies c client server cut.flatten)) ∧
      (downloadAll c client server total done files cut).requests =
        cut.flatten.flatMap fun path => (download c client server path).1 := by
  induction cut generalizing done files with
  | nil => exact ⟨rfl, rfl⟩
  | cons batch rest ih =>
    have hbatch : Serves c client server batch := fun path hpath =>
      h path (List.mem_append_left _ hpath)
    have hrest : Serves c client server rest.flatten := fun path hpath =>
      h path (List.mem_append_right _ hpath)
    obtain ⟨houtcome, hrequests⟩ := ih hrest (done + batch.length)
      (collect files (bodies c client server batch))
    rw [hbatch.downloadAll_cons]
    dsimp only
    rw [houtcome, hrequests, List.flatten_cons, bodies_append, collect_append,
      List.flatMap_append]
    exact ⟨rfl, rfl⟩

/-- A resolution ends with the files that are found in the batches of a listing. -/
theorem resolve_of_ok
    (hlist : (list c client server).2 = .ok paths) {files : Files}
    (hfound : (downloadAll c client server paths.length 0 []
      (batches c.batch paths.length paths)).outcome = .ok files) :
    (resolve c client server).outcome = .ok files ∧
      (resolve c client server).requests = (list c client server).1 ++
        (downloadAll c client server paths.length 0 []
          (batches c.batch paths.length paths)).requests := by
  unfold resolve
  dsimp only
  rw [hlist]
  dsimp only
  rw [hfound]
  dsimp only
  split
  · exact ⟨rfl, rfl⟩
  · exact ⟨rfl, rfl⟩

/-- Whatever the size of the batches, the files are the same, and so are the requests. -/
theorem resolve_eq
    {entries : List Json.Tree} (hlists : c.Lists client server entries)
    (hserves : Serves c client server (entries.filterMap c.pathOf?)) (size : Int) :
    (resolve { c with batchSize := size } client server).outcome =
        .ok (collect [] (bodies c client server (entries.filterMap c.pathOf?))) ∧
      (resolve { c with batchSize := size } client server).requests =
        (list c client server).1 ++
          (entries.filterMap c.pathOf?).flatMap fun path => (download c client server path).1 := by
  generalize hpaths : entries.filterMap c.pathOf? = paths at hserves ⊢
  have hlist : (list { c with batchSize := size } client server).2 = .ok paths := by
    rw [← hpaths]
    exact hlists.list_eq
  have hflat : (batches ({ c with batchSize := size } : Config).batch paths.length paths).flatten =
      paths :=
    flatten_batches (Config.batch_pos _) (Nat.le_refl _)
  obtain ⟨houtcome, hrequests⟩ := downloadAll_eq (c := { c with batchSize := size })
    (by rw [hflat]; exact hserves) paths.length 0 []
  obtain ⟨hfiles, hall⟩ := resolve_of_ok hlist houtcome
  rw [hflat] at hfiles hrequests
  rw [hrequests] at hall
  exact ⟨hfiles, hall⟩

/-- What is collected are the files that could be downloaded. -/
theorem delivers_collect (c : Config) (client : Client) (server : Server) (paths : List Path) :
    Delivers c client server paths (collect [] (bodies c client server paths)) where
  order := keys_collect_bodies paths
  found := by
    intro path body
    rw [lookup_collect_bodies, Option.ite_none_right_eq_some, body?_eq_some_iff]

end Download

end Library

end SolidWorkshop
