import SolidWorkshop.Compile.Bench
import SolidWorkshop.Job.Floor
import SolidWorkshop.Service.Settings

/-!
# Assembly

The parts of the service as its settings ask for them: the rules of the board, the limits of the
engine, and the library.
-/

namespace SolidWorkshop.Service

namespace Settings

/-- The rules of the board. -/
def policy (s : Settings) : Job.Policy :=
  { maxQueue := s.maxQueueSize
    maxRecords := s.maxJobRecords
    lifetime := microseconds s.finishedJobTtl
    artifactsDir := s.artifactsDir }

/-- The limits of the engine. -/
def limits (s : Settings) : Engine.Limits :=
  ⟨s.engineTimeout, s.engineProbeTimeout, s.keepWorkspaces⟩

/-- The library. -/
def library (s : Settings) : Library.Config :=
  { name := s.libraryName
    repo := s.libraryRepo
    version := s.libraryVersion
    listingUrl := s.libraryListingUrl
    fileUrl := s.libraryFileUrl
    fileSuffix := s.libraryFileSuffix
    batchSize := s.dependencyBatchSize }

/-- A floor with the workers that the settings ask for. -/
def floor {σ π : Type} (s : Settings) (shared : σ) : Job.Floor σ π :=
  Job.Floor.startUp
    { board := { policy := s.policy }, shared, isTidy := s.cleanupInterval.le (.int 0) }
    s.maxConcurrentJobs.toNat

end Settings

end SolidWorkshop.Service
