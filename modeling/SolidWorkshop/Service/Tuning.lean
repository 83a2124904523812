import SolidWorkshop.Service.Settings

/-!
# Tuning

Settings changed by the names of their fields.  Unlike values from the environment, these are
taken as they are.
-/

namespace SolidWorkshop.Service.Settings

/-- The settings with the value of a field changed; an unknown name changes nothing. -/
def change (s : Settings) (name : String) (v : Value) : Settings :=
  let text := v.text?.getD ""
  let int := v.int?.getD 0
  let number := (Number.ofValue? v).getD (.int 0)
  let path := Storage.Path.ofString text
  match name with
  | "service_name" => { s with serviceName := text }
  | "openscad_executable" => { s with engine := path }
  | "engine_timeout_seconds" => { s with engineTimeout := number }
  | "engine_probe_timeout_seconds" => { s with engineProbeTimeout := number }
  | "keep_workspaces" => { s with keepWorkspaces := v.isTruthy }
  | "library_name" => { s with libraryName := text }
  | "library_repo" => { s with libraryRepo := text }
  | "library_version" => { s with libraryVersion := text }
  | "library_listing_url" => { s with libraryListingUrl := text }
  | "library_file_url" => { s with libraryFileUrl := text }
  | "library_file_suffix" => { s with libraryFileSuffix := text }
  | "dependency_batch_size" => { s with dependencyBatchSize := int }
  | "storage_dir" => { s with storageDir := path }
  | "workspaces_subdir" => { s with workspacesSubdir := text }
  | "artifacts_subdir" => { s with artifactsSubdir := text }
  | "max_concurrent_jobs" => { s with maxConcurrentJobs := int }
  | "max_queue_size" => { s with maxQueueSize := int }
  | "sync_wait_timeout_seconds" => { s with syncWaitTimeout := number }
  | "finished_job_ttl_seconds" => { s with finishedJobTtl := number }
  | "cleanup_interval_seconds" => { s with cleanupInterval := number }
  | "max_job_records" => { s with maxJobRecords := int }
  | "api_key" => { s with apiKey := v.text? }
  | _ => s

end SolidWorkshop.Service.Settings
