import WakeWatch.CollapseProofs
import WakeWatch.TrayProofs

/-! # Repeated polls settle

    A pass leaves the map as it was, or as a refresh makes it, and a fresh map
    stays.  So on an unchanged system the map is settled after one pass, the
    snapshot after two, and the tray is redrawn once more at most. -/

namespace WakeSettle

open StepRun WakePower WakeDevPath WakeModel WakeGrouping WakeOrder WakeCollapse
open WakeTray WakeScreen

variable (os : DriveTable) (requests : List RawRequest) (paths : DevicePathMap)

/-! ## The map -/

/-- The first miss of a pass rebuilds the map, and nothing changes it again. -/
theorem mapAfter_eq (l : List RawRequest) :
    mapAfter os l paths = if l.any (misses paths) then paths.refresh os else paths := by
  induction l with
  | nil => rfl
  | cons r rest ih =>
      rw [mapAfter, List.foldl_cons, ← mapAfter, List.any_cons]
      cases hmiss : misses paths r with
      | true =>
          rw [(describe_of_miss os hmiss).2, fresh_refresh.mapAfter_eq]
          rfl
      | false =>
          rw [(describe_of_hit os hmiss).2, ih]
          rfl

theorem build_snd :
    (build os requests paths).2 = mapAfter os (passOrder requests) paths :=
  (flatMap_modeCalls requests 6).2

/-- A second pass leaves the map as the first left it. -/
theorem build_snd_idem :
    (build os requests (build os requests paths).2).2 = (build os requests paths).2 := by
  rw [build_snd os requests paths, mapAfter_eq]
  split
  · rw [build_snd, fresh_refresh.mapAfter_eq]
  · next hmiss => rw [build_snd, mapAfter_eq, if_neg hmiss]

/-! ## The snapshots -/

/-- The map before the `n`-th of a series of polls. -/
def mapBefore : Nat → DevicePathMap
  | 0 => paths
  | n + 1 => (build os requests (mapBefore n)).2

/-- The snapshot of the `n`-th poll. -/
def snapshotAt (n : Nat) : Snapshot := (build os requests (mapBefore os requests paths n)).1

theorem mapBefore_succ (n : Nat) :
    mapBefore os requests paths (n + 1) = mapBefore os requests paths 1 := by
  induction n with
  | zero => rfl
  | succ n ih =>
      rw [mapBefore, ih]
      exact build_snd_idem os requests paths

theorem snapshotAt_succ (n : Nat) :
    snapshotAt os requests paths (n + 1) = snapshotAt os requests paths 1 := by
  rw [snapshotAt, mapBefore_succ]
  rfl

/-! ## The tray -/

variable {Icon ε : Type}

/-- The polls from the `n`-th on, each under its own host. -/
def pollEvents (n : Nat) : List (Host ε) → List (Event ε)
  | [] => []
  | host :: rest => .apply host (snapshotAt os requests paths n) :: pollEvents (n + 1) rest

theorem pollEvents_succ (hosts : List (Host ε)) :
    ∀ n, pollEvents os requests paths (n + 1) hosts =
      hosts.map (Event.apply · (snapshotAt os requests paths 1)) := by
  induction hosts with
  | nil => exact fun _ => rfl
  | cons host rest ih =>
      intro n
      rw [pollEvents, ih, snapshotAt_succ, List.map_cons]

/-- **REPEATED POLLS SETTLE**.  On an unchanged system all snapshots from the
    second on are one, the first is that one too unless the first pass
    changed the map, and from the second poll on the tray stays as it is. -/
theorem polls_settle :
    (∀ n, snapshotAt os requests paths (n + 1) = snapshotAt os requests paths 1) ∧
      ((build os requests paths).2 = paths →
        snapshotAt os requests paths 0 = snapshotAt os requests paths 1) ∧
      ∀ (t : Tray Icon) (host host' : Host ε) (hosts : List (Host ε)),
        run step t (pollEvents os requests paths 0 (host :: host' :: hosts)) =
          run step t (pollEvents os requests paths 0 [host, host']) := by
  refine ⟨snapshotAt_succ os requests paths, fun hmap => ?_, fun t host host' hosts => ?_⟩
  · rw [snapshotAt, snapshotAt, mapBefore, mapBefore, mapBefore, hmap]
  · rw [pollEvents, pollEvents_succ, pollEvents, pollEvents_succ]
    -- the second poll puts the settled snapshot in the cache
    rw [List.map_cons, List.map_cons, List.map_nil, run, run, List.foldl_cons, List.foldl_cons,
      List.foldl_cons, List.foldl_cons, List.foldl_nil]
    exact run_of_shown (shown_step_apply _ host' _) hosts

end WakeSettle
