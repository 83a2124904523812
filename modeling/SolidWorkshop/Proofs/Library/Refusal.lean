import SolidWorkshop.Proofs.Library.Resolution

/-!
# Files whose addresses are refused

A file that cannot be downloaded is left out of the library, whatever the server answers.  What is
not left out is a file whose address cannot be built, or is refused by the client at once or on the
way that answers direct it: such a file ends the whole resolution, and nothing is kept.
-/

namespace SolidWorkshop.Library

variable {c : Config} {client : Client} {server : Server} {entries : List Json.Tree} {path : Path}
  {paths : List Path} {failure : Failure}

/-! ## Refused files -/

/-- The file of a path is refused: its address cannot be built, or the client comes back with a
refusal. -/
inductive IsRefused (c : Config) (client : Client) (server : Server) (path : Path) : Failure → Prop
  | template {failure : Failure} (haddress : c.address path = .error failure) :
    IsRefused c client server path failure
  | client {text : List Text.Point} {failure : Failure} (haddress : c.address path = .ok text)
    (hrefused : (client.fetch server text).result = .error (.refused failure)) :
    IsRefused c client server path failure

/-- A file is downloaded or left out exactly if it is not refused. -/
theorem download_eq_error_iff :
    (download c client server path).2 = .error failure ↔
      IsRefused c client server path failure := by
  unfold download
  constructor
  · intro h
    cases haddress : c.address path with
    | error cause =>
      rw [haddress] at h
      obtain rfl := Except.error.inj h
      exact .template haddress
    | ok text =>
      rw [haddress] at h
      dsimp only at h
      split at h
      · next cause hresult =>
        obtain rfl := Except.error.inj h
        exact .client haddress hresult
      · contradiction
      · contradiction
  · intro h
    cases h with
    | template haddress => rw [haddress]
    | client haddress hrefused =>
      rw [haddress]
      dsimp only
      rw [hrefused]

theorem serves_iff :
    Serves c client server paths ↔
      ∀ path ∈ paths, ∀ failure, ¬IsRefused c client server path failure := by
  refine forall₂_congr fun path _ => ?_
  constructor
  · rintro ⟨body, hbody⟩ failure hrefused
    exact absurd (hbody.symm.trans (download_eq_error_iff.mpr hrefused)) nofun
  · intro hnone
    cases hdownload : (download c client server path).2 with
    | ok body => exact ⟨body, rfl⟩
    | error failure => exact absurd (download_eq_error_iff.mp hdownload) (hnone failure)

/-! ## Names with foreign points -/

theorem inForm_nil (s : List Text.Point) : inForm [] s = .ok s := by
  simp [inForm, takeSide, takeMark, takeCount, fillUp, Text.digitsValue, formLimit, bind,
    Except.bind, pure, Except.pure]

theorem indexOf?_of_letter
    {name : List Char} {c : Char} (hmem : c ∈ name) (hletter : Text.isDigit c = false) :
    indexOf? name = .ok none := by
  have hall : name.all Text.isDigit = false :=
    List.all_eq_false.mpr ⟨c, hmem, Bool.not_eq_true _ ▸ hletter⟩
  rw [indexOf?, hall, Bool.not_false, Bool.or_true, if_pos rfl]

/-- The usual template puts the path of a file last, as it is. -/
theorem exists_address_eq_append
    (husual : c.fileUrl = ({} : Config).fileUrl) (path : Path) :
    ∃ front, c.address path = .ok (front ++ path) := by
  have hrepo : indexOf? ['r', 'e', 'p', 'o'] = .ok none :=
    indexOf?_of_letter List.mem_cons_self (by decide)
  have hversion : indexOf? ['v', 'e', 'r', 's', 'i', 'o', 'n'] = .ok none :=
    indexOf?_of_letter List.mem_cons_self (by decide)
  have hpath : indexOf? ['p', 'a', 't', 'h'] = .ok none :=
    indexOf?_of_letter List.mem_cons_self (by decide)
  refine ⟨Text.points "https://cdn.jsdelivr.net/gh/" ++ Text.points c.repo ++ [.char '@'] ++
    Text.points c.version ++ [.char '/'], ?_⟩
  simp [Config.address, Config.fields, husual, fill, expand, takeField, takeName, valueOf,
    converted, inForm_nil, part, bind, Except.bind, pure, Except.pure, List.lookup_cons, hrepo,
    hversion, hpath, Text.points]

/-- With the usual template a name that holds a foreign point is refused, whatever the server
answers. -/
theorem exists_isRefused_of_isForeign
    (hclient : client.IsRegular) (husual : c.fileUrl = ({} : Config).fileUrl) {p : Text.Point}
    (hmem : p ∈ path) (hforeign : Client.isForeign p = true) (server : Server) :
    ∃ failure, IsRefused c client server path failure := by
  obtain ⟨front, haddress⟩ := exists_address_eq_append husual path
  obtain ⟨failure, hget⟩ :=
    hclient.refuses (front ++ path) p (List.mem_append_right front hmem) hforeign
  refine ⟨failure, .client haddress ?_⟩
  rw [Client.fetch, hget]
  rfl

/-! ## The end of a resolution -/

/-- Either all outcomes are there, or the first failure is that of one of them. -/
theorem firstFailure_cases {α β : Type} (f : α → Except Failure β) (xs : List α) :
    ((∀ x ∈ xs, ∃ b, f x = .ok b) ∧ ∃ bs, firstFailure (xs.map f) = .ok bs) ∨
      ∃ x ∈ xs, ∃ cause, f x = .error cause ∧ firstFailure (xs.map f) = .error cause := by
  induction xs with
  | nil => exact Or.inl ⟨List.forall_mem_nil _, [], rfl⟩
  | cons x xs ih =>
    rw [List.map_cons]
    cases hx : f x with
    | error cause => exact Or.inr ⟨x, List.mem_cons_self, cause, hx, rfl⟩
    | ok b =>
      rcases ih with ⟨hall, bs, hbs⟩ | ⟨y, hy, cause, hcause, hfirst⟩
      · refine Or.inl ⟨List.forall_mem_cons.mpr ⟨⟨b, hx⟩, hall⟩, b :: bs, ?_⟩
        rw [firstFailure, hbs]
        rfl
      · refine Or.inr ⟨y, List.mem_cons_of_mem x hy, cause, hcause, ?_⟩
        rw [firstFailure, hfirst]
        rfl

/-- One refused file is enough to end the work, with the failure of such a file. -/
theorem exists_downloadAll_eq_error
    {cut : List (List Path)} (hpath : path ∈ cut.flatten)
    (hrefused : IsRefused c client server path failure) (total done : Nat) (files : Files) :
    ∃ other ∈ cut.flatten, ∃ cause, IsRefused c client server other cause ∧
      (downloadAll c client server total done files cut).outcome = .error cause := by
  induction cut generalizing done files with
  | nil => contradiction
  | cons batch rest ih =>
    rw [downloadAll]
    dsimp only
    rw [List.map_map, List.flatten_cons]
    rcases firstFailure_cases (fun path => (download c client server path).2) batch with
      ⟨hall, bodies, hbodies⟩ | ⟨other, hother, cause, hcause, hfirst⟩
    · have hlater : path ∈ rest.flatten := by
        rcases List.mem_append.mp hpath with hbatch | hlater
        · obtain ⟨body, hbody⟩ := hall path hbatch
          have hdownload := download_eq_error_iff.mpr hrefused
          rw [hbody] at hdownload
          contradiction
        · exact hlater
      obtain ⟨other, hother, cause, hcause, houtcome⟩ :=
        ih hlater (done + batch.length) (collect files (batch.zip bodies))
      refine ⟨other, List.mem_append_right batch hother, cause, hcause, ?_⟩
      rw [Function.comp_def, hbodies]
      exact houtcome
    · refine ⟨other, List.mem_append_left _ hother, cause, download_eq_error_iff.mp hcause, ?_⟩
      rw [Function.comp_def, hfirst]

/-- A resolution with a refused file fails. -/
theorem exists_resolve_eq_error
    (hlists : c.Lists client server entries) (hpath : path ∈ entries.filterMap c.pathOf?)
    (hrefused : IsRefused c client server path failure) :
    ∃ other ∈ entries.filterMap c.pathOf?, ∃ cause, IsRefused c client server other cause ∧
      (resolve c client server).outcome = .error cause := by
  have hflat := flatten_batches c.batch_pos (Nat.le_refl (entries.filterMap c.pathOf?).length)
  rw [← hflat] at hpath
  obtain ⟨other, hother, cause, hcause, houtcome⟩ :=
    exists_downloadAll_eq_error hpath hrefused (entries.filterMap c.pathOf?).length 0 []
  rw [hflat] at hother
  refine ⟨other, hother, cause, hcause, ?_⟩
  unfold resolve
  dsimp only
  rw [hlists.list_eq]
  dsimp only
  rw [houtcome]

/-- With a listing, the files that could be downloaded are found and kept exactly if none of the
files is refused.  Otherwise the resolution fails with the refusal of one of them, and as little is
known of the library as before.  With the usual template the regular client refuses every name that
holds a control character or a half of a surrogate pair. -/
theorem resolution_survives_iff
    (hlists : c.Lists client server entries) {store : Store} (hstore : store.IsVacant c.key) :
    ((∃ files requests, Delivers c client server (entries.filterMap c.pathOf?) files ∧
        Resolves c client server files requests store) ↔
      ∀ path ∈ entries.filterMap c.pathOf?, ∀ failure, ¬IsRefused c client server path failure) ∧
    (∀ path ∈ entries.filterMap c.pathOf?, ∀ failure, IsRefused c client server path failure →
      ∃ other ∈ entries.filterMap c.pathOf?, ∃ cause, IsRefused c client server other cause ∧
        (askAll c client server store 1).results = [.error cause] ∧
        (askAll c client server store 1).store.IsVacant c.key) ∧
    (client.IsRegular → c.fileUrl = ({} : Config).fileUrl →
      ∀ path, ∀ p ∈ path, Client.isForeign p = true →
        ∃ failure, IsRefused c client server path failure) := by
  have hfails : ∀ path ∈ entries.filterMap c.pathOf?, ∀ failure,
      IsRefused c client server path failure →
      ∃ other ∈ entries.filterMap c.pathOf?, ∃ cause, IsRefused c client server other cause ∧
        (askAll c client server store 1).results = [.error cause] ∧
        (askAll c client server store 1).store.IsVacant c.key := by
    intro path hpath failure hrefused
    obtain ⟨other, hother, cause, hcause, houtcome⟩ := exists_resolve_eq_error hlists hpath hrefused
    exact ⟨other, hother, cause, hcause, askAll_of_isVacant_of_error hstore houtcome⟩
  refine ⟨⟨?_, ?_⟩, hfails, fun hclient husual path p hmem hforeign =>
    exists_isRefused_of_isForeign hclient husual hmem hforeign server⟩
  · rintro ⟨files, requests, -, hresolves⟩ path hpath failure hrefused
    obtain ⟨other, hother, cause, hcause, hresults, -⟩ := hfails path hpath failure hrefused
    have hsame := hresolves.results.symm.trans hresults
    exact absurd (List.cons.inj hsame).1 nofun
  · intro hnone
    obtain ⟨houtcome, -⟩ := resolve_eq hlists (serves_iff.mpr hnone) c.batchSize
    exact ⟨_, _, delivers_collect c client server _, resolves_of_isVacant hstore houtcome⟩

/-- A server of two files, one of which has a control character in its name. -/
def spoiltServer : Server where
  routes :=
    [("https://data.jsdelivr.com/v1/packages/gh/BelfrySCAD/BOSL2@master?structure=flat",
        .reply 200 none "\x7b\"files\": [\"/gear.scad\", \"/bo\\u0001lt.scad\"]\x7d".toUTF8),
      ("https://cdn.jsdelivr.net/gh/BelfrySCAD/BOSL2@master/gear.scad",
        .reply 200 none "cube(1);".toUTF8)]

/-- The paths of the two files. -/
def spoiltPaths : List Path :=
  ["gear.scad", "bo\x01lt.scad"].map Text.points

theorem exists_lists_spoiltServer :
    ∃ entries, ({} : Config).Lists shelfClient spoiltServer entries ∧
      entries.filterMap ({} : Config).pathOf? = spoiltPaths :=
  Config.exists_lists_of_list_eq_ok (Failure.eq_ok_of_toOption (by decide +kernel))

/-- A file with a control character in its name takes the other one along. -/
theorem resolution_survives_iff_of_spoilt :
    ∃ entries, ({} : Config).Lists shelfClient spoiltServer entries ∧
      entries.filterMap ({} : Config).pathOf? = spoiltPaths ∧
      ({} : Store).IsVacant ({} : Config).key ∧
      (download {} shelfClient spoiltServer (Text.points "gear.scad")).2 =
        .ok (some "cube(1);".toUTF8) ∧
      (¬∃ files requests, Delivers {} shelfClient spoiltServer spoiltPaths files ∧
        Resolves {} shelfClient spoiltServer files requests {}) ∧
      ∃ failure, (askAll {} shelfClient spoiltServer {} 1).results = [.error failure] ∧
        (askAll {} shelfClient spoiltServer {} 1).store.IsVacant ({} : Config).key := by
  obtain ⟨entries, hlists, hpaths⟩ := exists_lists_spoiltServer
  have hvacant : ({} : Store).IsVacant ({} : Config).key := Flight.State.isVacant_empty _
  obtain ⟨hsurvives, hfails, hforeign⟩ := resolution_survives_iff hlists hvacant
  rw [hpaths] at hsurvives hfails
  have hmem : Text.points "bo\x01lt.scad" ∈ spoiltPaths :=
    List.mem_cons_of_mem _ List.mem_cons_self
  obtain ⟨reason, hrefused⟩ := hforeign (isRegular_following _) rfl
    (Text.points "bo\x01lt.scad") (.char '\x01') (by decide) (by decide)
  obtain ⟨other, -, failure, -, hresults, hstore⟩ := hfails _ hmem _ hrefused
  exact ⟨entries, hlists, hpaths, hvacant, Failure.eq_ok_of_toOption (by decide +kernel),
    fun hdelivered => hsurvives.mp hdelivered _ hmem _ hrefused, failure, hresults, hstore⟩

/-- Not every listing leads to the files that could be downloaded. -/
theorem not_forall_resolution_survives :
    ¬∀ (c : Config) (client : Client) (server : Server) (entries : List Json.Tree) (store : Store),
      client.IsRegular → c.Lists client server entries → store.IsVacant c.key →
        ∃ files requests, Delivers c client server (entries.filterMap c.pathOf?) files ∧
          Resolves c client server files requests store := by
  intro hall
  have hclient : shelfClient.IsRegular := isRegular_following _
  obtain ⟨entries, hlists, hpaths⟩ := exists_lists_spoiltServer
  have hvacant : ({} : Store).IsVacant ({} : Config).key := Flight.State.isVacant_empty _
  obtain ⟨files, requests, -, hresolves⟩ := hall {} _ spoiltServer entries {} hclient hlists hvacant
  have hspoilt : Text.Point.char '\x01' ∈ Text.points "bo\x01lt.scad" := by decide
  obtain ⟨reason, hrefused⟩ :=
    exists_isRefused_of_isForeign (c := {}) hclient rfl hspoilt (by decide) spoiltServer
  have hmem : Text.points "bo\x01lt.scad" ∈ entries.filterMap ({} : Config).pathOf? := by
    rw [hpaths]
    exact List.mem_cons_of_mem _ List.mem_cons_self
  obtain ⟨other, -, failure, -, houtcome⟩ := exists_resolve_eq_error hlists hmem hrefused
  obtain ⟨hresults, -⟩ := askAll_of_isVacant_of_error hvacant houtcome
  exact absurd (List.cons.inj (hresolves.results.symm.trans hresults)).1 nofun

end SolidWorkshop.Library
