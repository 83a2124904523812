import SolidWorkshop.Proofs.Flight.Caller
import SolidWorkshop.Proofs.Library.Following
import SolidWorkshop.Proofs.Library.Traffic

/-!
# Resolution and its batches

With a listing, and with files that can be downloaded or left out, a resolution is the same for
all sizes of batches: its files, its requests and what is kept.  The batches only say how many
requests may wait for their answers at the same time.
-/

namespace SolidWorkshop.Library

variable {c : Config} {client : Client} {server : Server} {entries : List Json.Tree}
  {paths : List Path}

/-! ## Requests -/

/-- The first address that a client requests for a path. -/
def Config.Addresses (c : Config) (client : Client) (path : Path) (address : String) : Prop :=
  ∃ text hear, c.address path = .ok text ∧ client.get text = .request address hear

/-- The file of a path is requested once, and after that only what answers direct to. -/
def IsRequestedOnce (c : Config) (client : Client) (server : Server) (path : Path) : Prop :=
  ∃ address later, c.Addresses client path address ∧
    (download c client server path).1 = address :: later ∧
    (¬(server.answer address).Directs → later = [])

/-- From its first request on, a fetch goes where answers direct to. -/
theorem fetch_requests
    (hclient : client.IsRegular) {text : List Text.Point} {address : String}
    {hear : Answer → Exchange} (hget : client.get text = .request address hear) :
    ∃ later, (client.fetch server text).requests = address :: later ∧
      (¬(server.answer address).Directs → later = []) := by
  have hdirected := hclient.directed text
  rw [hget] at hdirected
  rw [Client.fetch, hget]
  refine ⟨_, rfl, fun hno => ?_⟩
  obtain ⟨result, hended⟩ := (hdirected (server.answer address)).2 hno
  rw [hended]
  rfl

theorem Serves.isRequestedOnce
    (h : Serves c client server paths) (hclient : client.IsRegular) {path : Path}
    (hpath : path ∈ paths) :
    IsRequestedOnce c client server path := by
  obtain ⟨body, hbody⟩ := h path hpath
  unfold IsRequestedOnce Config.Addresses
  unfold download at hbody ⊢
  cases haddress : c.address path with
  | error failure =>
    rw [haddress] at hbody
    contradiction
  | ok text =>
    rw [haddress] at hbody
    cases hget : client.get text with
    | ended result =>
      obtain ⟨failure, rfl⟩ := hclient.requests text result hget
      dsimp only at hbody
      rw [Client.fetch, hget] at hbody
      contradiction
    | request address hear =>
      obtain ⟨later, hrequests, hlater⟩ := fetch_requests hclient hget
      exact ⟨address, later, ⟨text, hear, rfl, hget⟩, hrequests, hlater⟩

/-! ## The store -/

/-- Who asks when the library has been found is given it at once. -/
theorem askAll_of_peek?
    {store : Store} {files : Files} (h : store.peek? c.key = some files) (client : Client)
    (server : Server) (callers : Nat) :
    askAll c client server store callers =
      ⟨store, List.replicate callers (cachedLine c files), [],
        List.replicate callers (.ok files)⟩ := by
  rw [askAll, h]

/-- Who asks alone when nothing is known of the library is given what is found, and that is
kept. -/
theorem askAll_of_isVacant
    {store : Store} (h : store.IsVacant c.key) {files : Files}
    (hfound : (resolve c client server).outcome = .ok files) :
    (askAll c client server store 1).results = [.ok files] ∧
      (askAll c client server store 1).requests = (resolve c client server).requests ∧
      (askAll c client server store 1).store.peek? c.key = some files := by
  obtain ⟨t, hshare, hpeek, -⟩ := h.share_cases (.value files)
  have hask : askAll c client server store 1 =
      ⟨t, (resolve c client server).lines, (resolve c client server).requests, [.ok files]⟩ := by
    rw [askAll, h.unknown]
    dsimp only
    rw [hfound, Outcome.ofExcept, hshare]
    rfl
  rw [hask]
  exact ⟨rfl, rfl, hpeek⟩

/-- A failure is told, and then as little is known of the library as before. -/
theorem askAll_of_isVacant_of_error
    {store : Store} (h : store.IsVacant c.key) {failure : Failure}
    (hfailed : (resolve c client server).outcome = .error failure) :
    (askAll c client server store 1).results = [.error failure] ∧
      (askAll c client server store 1).store.IsVacant c.key := by
  obtain ⟨t, hshare, -, hvacant⟩ := h.share_cases (.failure failure)
  have hask : askAll c client server store 1 =
      ⟨t, (resolve c client server).lines, (resolve c client server).requests,
        [.error failure]⟩ := by
    rw [askAll, h.unknown]
    dsimp only
    rw [hfailed, Outcome.ofExcept, hshare]
    rfl
  rw [hask]
  exact ⟨rfl, hvacant rfl⟩

/-! ## The same library for all sizes of batches -/

/-- Who asks alone is given some files, by some requests, and they are kept. -/
structure Resolves (c : Config) (client : Client) (server : Server) (files : Files)
    (requests : List String) (store : Store) : Prop where
  results : (askAll c client server store 1).results = [.ok files]
  requests : (askAll c client server store 1).requests = requests
  /-- From then on nothing is requested, whatever the server would answer. -/
  kept : ∀ later callers,
    askAll c client later (askAll c client server store 1).store callers =
      ⟨(askAll c client server store 1).store, List.replicate callers (cachedLine c files), [],
        List.replicate callers (.ok files)⟩

theorem resolves_of_isVacant
    {store : Store} (h : store.IsVacant c.key) {files : Files}
    (hfound : (resolve c client server).outcome = .ok files) :
    Resolves c client server files (resolve c client server).requests store := by
  obtain ⟨hresults, hrequests, hpeek⟩ := askAll_of_isVacant h hfound
  exact ⟨hresults, hrequests, fun later callers => askAll_of_peek? hpeek client later callers⟩

/-- The entries of a listing that name sources determine the library.  Whatever the size of the
batches, a resolution ends with the files that could be downloaded, by one request for every such
entry, and they are kept; at no time do more requests wait for their answers than a batch has
entries, and no batch begins before the last one is over. -/
theorem resolve_ignores_batching
    (hclient : client.IsRegular) (hlists : c.Lists client server entries)
    (hserves : Serves c client server (entries.filterMap c.pathOf?)) :
    (∀ entry path, c.pathOf? entry = some path ↔ c.Keeps entry path) ∧
    (∀ path ∈ entries.filterMap c.pathOf?, IsRequestedOnce c client server path) ∧
    ∃ files, Delivers c client server (entries.filterMap c.pathOf?) files ∧
      ∀ size : Int,
        (∀ store : Store, store.IsVacant c.key →
          Resolves { c with batchSize := size } client server files
            ((list c client server).1 ++
              (entries.filterMap c.pathOf?).flatMap fun path => (download c client server path).1)
            store) ∧
        ∀ turns,
          ((Traffic.opened { c with batchSize := size } (entries.filterMap c.pathOf?)).run
            { c with batchSize := size } client server turns).IsOrderly
              { c with batchSize := size } client server (entries.filterMap c.pathOf?) files := by
  refine ⟨fun entry path => Config.pathOf?_eq_some_iff,
    fun path hpath => hserves.isRequestedOnce hclient hpath,
    _, delivers_collect c client server _, fun size => ⟨?_, fun turns => ?_⟩⟩
  · intro store hstore
    obtain ⟨hfound, hrequests⟩ := resolve_eq hlists hserves size
    rw [← hrequests]
    exact resolves_of_isVacant (c := { c with batchSize := size }) hstore hfound
  · exact Traffic.isOrderly_run { c with batchSize := size } client server _ turns

/-- A library on a server at hand. -/
def shelf : Config :=
  { listingUrl := "http://h/list", fileUrl := "http://h/\x7bpath\x7d" }

/-- The client that goes to the shelf. -/
def shelfClient : Client :=
  following "http://h/status/"

/-- The listing names a file twice, and one that is no source. -/
def shelfListing : String :=
  "\x7b\"files\": [\"gear.scad\", \"nut.scad\", \x7b\"name\": \"/gear.scad\"\x7d, " ++
    "\"notes.md\", \"bolt.scad\"]\x7d"

/-- One of the files is missing, and one is found at another place. -/
def shelfServer : Server where
  routes :=
    [("http://h/list", .reply 200 none shelfListing.toUTF8),
      ("http://h/gear.scad", .reply 200 none "cube(1);".toUTF8),
      ("http://h/bolt.scad", .reply 301 (some "/m4.scad") ByteArray.empty),
      ("http://h/m4.scad", .reply 200 none "cube(2);".toUTF8)]

/-- The sources of the listing. -/
def shelfPaths : List Path :=
  ["gear.scad", "nut.scad", "gear.scad", "bolt.scad"].map Text.points

theorem exists_lists_shelf :
    ∃ entries, shelf.Lists shelfClient shelfServer entries ∧
      entries.filterMap shelf.pathOf? = shelfPaths :=
  Config.exists_lists_of_list_eq_ok (Failure.eq_ok_of_toOption (by decide +kernel))

/-- Whatever is asked for by its path can be downloaded, or left out. -/
theorem serves_of_forall_toOption
    (hall : ∀ path ∈ paths, (download c client server path).2.toOption.isSome = true) :
    Serves c client server paths := by
  intro path hpath
  obtain ⟨body, hbody⟩ := Option.isSome_iff_exists.mp (hall path hpath)
  exact ⟨body, Failure.eq_ok_of_toOption hbody⟩

theorem serves_shelf : Serves shelf shelfClient shelfServer shelfPaths :=
  serves_of_forall_toOption (by decide +kernel)

theorem resolve_ignores_batching_of_shelf :
    ∃ entries, shelfClient.IsRegular ∧ shelf.Lists shelfClient shelfServer entries ∧
      Serves shelf shelfClient shelfServer (entries.filterMap shelf.pathOf?) ∧
      entries.filterMap shelf.pathOf? = shelfPaths ∧
      ∃ files : Files, files.map (·.1) = ["gear.scad", "bolt.scad"].map Text.points ∧
        files.lookup (Text.points "bolt.scad") = some "cube(2);".toUTF8 ∧
        Resolves { shelf with batchSize := 3 } shelfClient shelfServer files
          ["http://h/list", "http://h/gear.scad", "http://h/nut.scad", "http://h/gear.scad",
            "http://h/bolt.scad", "http://h/m4.scad"] {} ∧
        ((Traffic.opened { shelf with batchSize := 3 } shelfPaths).run
            { shelf with batchSize := 3 } shelfClient shelfServer
            [.gather, .send 1, .send 0, .receive 0, .send 2]).IsOrderly
              { shelf with batchSize := 3 } shelfClient shelfServer shelfPaths files := by
  obtain ⟨entries, hlists, hpaths⟩ := exists_lists_shelf
  have hclient : shelfClient.IsRegular := isRegular_following _
  have hserves : Serves shelf shelfClient shelfServer (entries.filterMap shelf.pathOf?) := by
    rw [hpaths]
    exact serves_shelf
  obtain ⟨-, -, files, hdelivers, hsizes⟩ := resolve_ignores_batching hclient hlists hserves
  obtain ⟨hresolves, htraffic⟩ := hsizes 3
  rw [hpaths] at hdelivers hresolves htraffic
  have hbolt : files.lookup (Text.points "bolt.scad") = some "cube(2);".toUTF8 :=
    (hdelivers.found _ _).mpr
      ⟨by simp [shelfPaths], Failure.eq_ok_of_toOption (by decide +kernel)⟩
  have hrequests : ((list shelf shelfClient shelfServer).1 ++
      shelfPaths.flatMap fun path => (download shelf shelfClient shelfServer path).1) =
      ["http://h/list", "http://h/gear.scad", "http://h/nut.scad", "http://h/gear.scad",
        "http://h/bolt.scad", "http://h/m4.scad"] := by decide +kernel
  exact ⟨entries, hclient, hlists, hserves, hpaths, files,
    hdelivers.order.trans (by decide +kernel), hbolt,
    hrequests ▸ hresolves {} (Flight.State.isVacant_empty _), htraffic _⟩

end SolidWorkshop.Library
