import WakeWatch.LastPollProofs
import WakeWatch.SnapshotProofs

/-! # What the screen tells about the query

    The tooltip of a failed poll tells that it failed, and how: every error has
    words of its own, all 2 ^ 32 status values included, and no display of a
    list has them.  A poll that does not fail shows the list of one moment. -/

namespace WakeReport

open PanicOutcome PanicOutcome.Outcome StepRun FormatText WakePower WakeDevPath WakeModel WakePoll
open WakeQuery WakeEncode WakeSnapshot WakeColour WakeMenu WakeScreen WakeMain WakeMessages
open WakeLastPoll
open WakeTray hiding Event step

/-! ## The words of an error -/

theorem hexDigit_injective : ∀ d < 16, ∀ d' < 16, hexDigit d = hexDigit d' → d = d' := by
  decide

/-- Numbers with the same digits are the same. -/
theorem mod_pow_of_digits {b m n : Nat} :
    ∀ k, (∀ i < k, m / b ^ i % b = n / b ^ i % b) → m % b ^ k = n % b ^ k := by
  intro k
  induction k with
  | zero =>
      intro _
      rw [Nat.pow_zero, Nat.mod_one, Nat.mod_one]
  | succ k ih =>
      intro h
      rw [Nat.mod_pow_succ, Nat.mod_pow_succ, ih fun i hi => h i (Nat.lt_succ_of_lt hi),
        h k (Nat.lt_succ_self k)]

theorem hex08_injective {n n' : UInt32} (h : hex08 n = hex08 n') : n = n' := by
  have hdigits : ∀ i < 8, n.toNat / 16 ^ i % 16 = n'.toNat / 16 ^ i % 16 := by
    intro i hi
    have hlist := String.ofList_inj.mp h
    have hdigit := List.map_inj_left.mp hlist (7 - i) (List.mem_range.mpr (by omega))
    rw [show 7 - (7 - i) = i by omega] at hdigit
    exact hexDigit_injective _ (Nat.mod_lt _ (by decide)) _ (Nat.mod_lt _ (by decide)) hdigit
  have hsame := mod_pow_of_digits 8 hdigits
  have hn : n.toNat < 16 ^ 8 := n.toNat_lt
  have hn' : n'.toNat < 16 ^ 8 := n'.toNat_lt
  rw [Nat.mod_eq_of_lt hn, Nat.mod_eq_of_lt hn'] at hsame
  exact UInt32.toNat_inj.mp hsame

/-- How the words of an error start. -/
def initialOf : PowerError → Char
  | .accessDenied => 'A'
  | .nt _ => 'Q'
  | .tooLarge => 'R'
  | .malformed => 'U'

theorem describe_leadsWith (e : PowerError) : LeadsWith (initialOf e) e.describe := by
  cases e with
  | accessDenied => rfl
  | nt status =>
      have hopen : LeadsWith 'Q' "Query failed (NTSTATUS 0x" := rfl
      exact (hopen.append _).append _
  | tooLarge => rfl
  | malformed => rfl

/-- **EVERY ERROR HAS WORDS OF ITS OWN**. -/
theorem describe_injective {e e' : PowerError} (h : e.describe = e'.describe) : e = e' := by
  have hinitial : initialOf e = initialOf e' :=
    (describe_leadsWith e).unique (h ▸ describe_leadsWith e')
  cases e with
  | nt status =>
      cases e' with
      | nt status' =>
          have hhex := (String.append_right_inj _).mp ((String.append_left_inj _).mp h)
          rw [Int32.toBitVec_inj.mp (congrArg UInt32.toBitVec (hex08_injective hhex))]
      | _ => exact absurd hinitial (by simp [initialOf])
  | accessDenied =>
      cases e' with
      | accessDenied => rfl
      | _ => exact absurd hinitial (by simp [initialOf])
  | tooLarge =>
      cases e' with
      | tooLarge => rfl
      | _ => exact absurd hinitial (by simp [initialOf])
  | malformed =>
      cases e' with
      | malformed => rfl
      | _ => exact absurd hinitial (by simp [initialOf])

/-! ## The tooltip of an error -/

theorem tooltip_failed (e : PowerError) :
    (Snapshot.failed e).tooltip = "WakeWatch — unknown\n" ++ e.describe := rfl

theorem truncate_leadsWith {c : Char} {s : String} (h : LeadsWith c s) :
    LeadsWith c (truncate s tooltipMax) := by
  rw [truncate]
  by_cases hlen : s.toList.length ≤ tooltipMax
  · rw [if_pos hlen]
    exact h
  · rw [if_neg hlen]
    refine LeadsWith.append ?_ _
    rw [LeadsWith, String.toList_ofList, List.head?_take, if_neg (by decide)]
    exact h

/-- No list is displayed like an error. -/
theorem tooltip_build_ne (os : DriveTable) (rs : List RawRequest) (paths : DevicePathMap)
    (words : String) : (build os rs paths).1.tooltip ≠ "WakeWatch — unknown\n" ++ words := by
  have hlevel := build_level_ne_unknown os rs paths
  generalize (build os rs paths).1 = snap at hlevel ⊢
  have hunknown : LeadsWith 'W' ("WakeWatch — unknown\n" ++ words) :=
    LeadsWith.append (s := "WakeWatch — unknown\n") rfl words
  intro h
  rw [Snapshot.tooltip] at h
  split at h
  · next hunk => exact hlevel hunk
  · -- the words part behind the dash
    have hsame : "WakeWatch — " ++ "no wakelocks" = "WakeWatch — " ++ ("unknown\n" ++ words) := by
      rw [← String.append_assoc]
      exact h
    have hrest := (String.append_right_inj _).mp hsame
    have hn : LeadsWith 'n' "no wakelocks" := rfl
    have hu : LeadsWith 'u' ("unknown\n" ++ words) := LeadsWith.append (s := "unknown\n") rfl words
    exact absurd (hn.unique (hrest ▸ hu)) (by decide)
  · next hlevel' =>
    have hdisplay : LeadsWith 'D' "Display lock: " := rfl
    rw [← h, lockLine, if_pos hlevel'] at hunknown
    exact absurd ((truncate_leadsWith (hdisplay.append _)).unique hunknown) (by decide)
  · next hlevel' =>
    have hstandby : LeadsWith 'S' "Standby lock: " := rfl
    have hne : snap.level ≠ .display := fun hdisplay => by
      rw [hlevel'] at hdisplay
      cases hdisplay
    rw [← h, lockLine, if_neg hne] at hunknown
    exact absurd ((truncate_leadsWith (hstandby.append _)).unique hunknown) (by decide)

/-! ## The screen -/

variable {Icon ε : Type}

/-- A poll displays the list it read, or the error it met. -/
theorem polls_cases {w : World ε} {paths : DevicePathMap} {out : Snapshot × DevicePathMap}
    (h : Polls w paths out) :
    (∃ rs, snapshot (queryRaw w.kernel).1 w.version = ok rs ∧ out = build w.drives rs paths) ∨
      ∃ e, snapshot (queryRaw w.kernel).1 w.version = err e ∧ out = (Snapshot.failed e, paths) := by
  rw [Polls, poll] at h
  cases hsnap : snapshot (queryRaw w.kernel).1 w.version with
  | ok rs =>
      rw [hsnap] at h
      exact Or.inl ⟨rs, rfl, (ok.inj h).symm⟩
  | err e =>
      rw [hsnap] at h
      exact Or.inr ⟨e, rfl, (ok.inj h).symm⟩
  | panic why =>
      rw [hsnap] at h
      cases h

/-- The tooltip of a poll has the words of an error if the poll met it. -/
theorem tooltip_iff {w : World ε} {paths : DevicePathMap} {out : Snapshot × DevicePathMap}
    (h : Polls w paths out) (e : PowerError) :
    out.1.tooltip = "WakeWatch — unknown\n" ++ e.describe ↔
      snapshot (queryRaw w.kernel).1 w.version = err e := by
  rcases polls_cases h with ⟨rs, hsnap, rfl⟩ | ⟨e', hsnap, rfl⟩
  · rw [hsnap]
    exact iff_of_false (tooltip_build_ne w.drives rs paths e.describe) fun herr => by cases herr
  · rw [hsnap, tooltip_failed, String.append_right_inj]
    constructor
    · intro hwords
      rw [describe_injective hwords]
    · intro herr
      rw [err.inj herr]

/-! ## A sample tick -/

/-- A tick in this world, and nobody clicks. -/
def sampleTick (w : World String) : List (Event String) := oneRound ⟨wmTimer, 1⟩ w [] []

theorem sample_tick (w : World String) : ∃ m s, startup id sampleLaunch = .running m ∧
    runs step m (sampleTick w) = some s ∧
    outputs step pollsOf m (sampleTick w) = [(w, DevicePathMap.new noDrives)] := by
  obtain ⟨m, -, hstart, -⟩ := sample_run
  obtain ⟨icons, t₀, out, hm⟩ := startup_cases hstart
  obtain ⟨found, hpoll⟩ := exists_polls w m.paths
  have hnil : Traces
      { afterPoll m w found with clicks := m.clicks ++ [], stage := .waiting }
      ([] : List (Event String)) [] [] := ⟨_, rfl, rfl, rfl⟩
  have hlast : Traces { afterPoll m w found with clicks := m.clicks ++ [], stage := .draining }
      [.noClick] [] [] :=
    traces_cons [] (.drained rfl (by rw [hm.clicks]; rfl)) rfl rfl hnil
  obtain ⟨s, hrun, hpolls, -⟩ := traces_poll w
    [.apply (withSchtasks w.host w.first) found.1] (.tick hm.stage hm.sample_ticks hpoll) rfl rfl
    ((if_pos hm.sample_ticks).trans (pollCall_eq hpoll)) hlast
  rw [sample_paths hm] at hpolls
  exact ⟨m, s, hstart, hrun, hpolls⟩

theorem sampleTick_calm {w : World String} (h : Calm w.host) :
    ∀ e ∈ sampleTick w, ∀ v, worldOf e = some v → Calm v.host :=
  worlds_of_round h (fun _ hv => absurd hv List.not_mem_nil) _ _

/-! ## Runs -/

variable {display : ε → String} {launch : Launch Icon ε} {m s : Main Icon}
  {events : List (Event ε)}

/-- **THE TOOLTIP TELLS THE ERROR**.  In every run of the program under a shell
    that refuses nothing, the tooltip has the words of an error exactly if the
    last poll met this error and no other. -/
theorem tooltip_tells_error (hstart : startup display launch = .running m)
    (hcalm₀ : Calm launch.world.host) (hrun : runs step m events = some s)
    (hcalm : ∀ e ∈ events, ∀ w, worldOf e = some w → Calm w.host) :
    ∃ w paths, (outputs step pollsOf m events).getLastD
        (launch.world, DevicePathMap.new launch.drives) = (w, paths) ∧
      ∀ e, s.tray.tray.tooltip = "WakeWatch — unknown\n" ++ e.describe ↔
        snapshot (queryRaw w.kernel).1 w.version = err e := by
  have hafter := displays_run hstart hcalm₀ hrun hcalm
  generalize (outputs step pollsOf m events).getLastD
    (launch.world, DevicePathMap.new launch.drives) = p at hafter
  obtain ⟨hsound, out, hpoll, -, hshown⟩ := hafter
  refine ⟨p.1, p.2, rfl, fun e => ?_⟩
  rw [(hsound out.1 hshown).tooltip]
  exact tooltip_iff hpoll e

/-- The program has no rights, and says so. -/
theorem sample_error : ∃ m s, startup id sampleLaunch = .running m ∧
    runs step m (sampleTick sampleWorld) = some s ∧
    s.tray.tray.tooltip = "WakeWatch — unknown\nAdministrator rights required" := by
  obtain ⟨m, s, hstart, hrun, hpolls⟩ := sample_tick sampleWorld
  obtain ⟨w, paths, hlast, htells⟩ :=
    tooltip_tells_error hstart calm_calmHost hrun (sampleTick_calm calm_calmHost)
  rw [hpolls] at hlast
  have hw : sampleWorld = w := congrArg Prod.fst hlast
  rw [← hw] at htells
  exact ⟨m, s, hstart, hrun, (htells .accessDenied).mpr sampleWorld_denied⟩

/-- **THE SCREEN IS THE LIST OF ONE MOMENT**.  Where the kernel of the last
    poll reports its lists, the screen shows one of them whole: that of the
    first call of the poll whose list fits.  Only where none of 256 lists does
    it shows that they are too large. -/
theorem screen_is_a_moment (hstart : startup display launch = .running m)
    (hcalm₀ : Calm launch.world.host) (hrun : runs step m events = some s)
    (hcalm : ∀ e ∈ events, ∀ w, worldOf e = some w → Calm w.host) :
    ∃ w paths, (outputs step pollsOf m events).getLastD
        (launch.world, DevicePathMap.new launch.drives) = (w, paths) ∧
      ∀ bytes lists, Reports w.kernel (ntBuild w.version) bytes lists →
        (∃ k < 256, (∀ j < k, 4096 * (j + 1) < (bytes j).length) ∧
          (bytes k).length ≤ 4096 * (k + 1) ∧
          Shows s.tray (build w.drives (lists k) paths).1) ∨
        (∀ k < 256, 4096 * (k + 1) < (bytes k).length) ∧
          Shows s.tray (Snapshot.failed .tooLarge) := by
  have hafter := displays_run hstart hcalm₀ hrun hcalm
  generalize (outputs step pollsOf m events).getLastD
    (launch.world, DevicePathMap.new launch.drives) = p at hafter
  obtain ⟨hsound, out, hpoll, -, hshown⟩ := hafter
  have hshows := hsound out.1 hshown
  refine ⟨p.1, p.2, rfl, fun bytes lists hlists => ?_⟩
  rcases hlists.first_fit with ⟨k, hk, hbefore, hfits⟩ | hall
  · have hsnap := hlists.snapshot_eq_ok hk hbefore hfits
    have hout : out = build p.1.drives (lists k) p.2 :=
      hpoll.unique (by rw [Polls, poll, hsnap])
    rw [hout] at hshows
    exact Or.inl ⟨k, hk, hbefore, hfits, hshows⟩
  · have hsnap := hlists.snapshot_tooLarge hall
    have hout : out = (Snapshot.failed .tooLarge, p.2) :=
      hpoll.unique (by rw [Polls, poll, hsnap])
    rw [hout] at hshows
    exact Or.inr ⟨hall, hshows⟩

/-- The kernel's list outgrows the first buffer, and is small from then on. -/
def reportingWorld : World String := { sampleWorld with kernel := reporting reportedBytes }

/-- The small list is on screen. -/
theorem sample_screen_moment : ∃ m s, startup id sampleLaunch = .running m ∧
    runs step m (sampleTick reportingWorld) = some s ∧
    Shows s.tray (build noDrives sampleList.requests (.new noDrives)).1 := by
  obtain ⟨m, s, hstart, hrun, hpolls⟩ := sample_tick reportingWorld
  obtain ⟨w, paths, hlast, hshown⟩ :=
    screen_is_a_moment hstart calm_calmHost hrun (sampleTick_calm calm_calmHost)
  rw [hpolls] at hlast
  obtain ⟨hw, hpaths⟩ : reportingWorld = w ∧ DevicePathMap.new noDrives = paths :=
    Prod.mk.inj hlast
  rw [← hw, ← hpaths] at hshown
  rcases hshown _ _ sample_reports with ⟨k, -, hbefore, hfits, hshows⟩ | ⟨hall, -⟩
  · rw [sampleLists_first hbefore hfits] at hshows
    exact ⟨m, s, hstart, hrun, hshows⟩
  · exact absurd (hall 1 (by decide)) (Nat.not_lt.mpr sampleLists_fit.2)

end WakeReport
