import Mathlib.Data.List.TakeWhile
import WakeWatch.TaskProofs

/-! # The words of a failure

    `schtasks` speaks the language of the system, so a failure is shown in its
    own words: what it wrote to its error output, or else to its output, as
    far as that is more than white space.  Bytes that are no UTF-8 are shown
    as U+FFFD, and of those that are nothing is lost on the way to the box. -/

namespace WakeFailure

open Utf8 WakeMenu WakeTask WakeMain WakeMessages
open WakeTray hiding Event step
open WakeScheduler (succeeds)

/-! ## White space -/

/-- `core` is `text` without the white space around it. -/
structure Trimmed (text core : String) : Prop where
  around : ∃ before after, text.toList = before ++ core.toList ++ after ∧
    (∀ c ∈ before, isWhitespace c = true) ∧ ∀ c ∈ after, isWhitespace c = true
  first : ∀ c, core.toList.head? = some c → isWhitespace c = false
  last : ∀ c, core.toList.getLast? = some c → isWhitespace c = false

def Blank (text : String) : Prop := ∀ c ∈ text.toList, isWhitespace c = true

theorem head?_dropWhile {α : Type} {p : α → Bool} {l : List α} {a : α}
    (h : (l.dropWhile p).head? = some a) : p a = false := by
  induction l with
  | nil => cases h
  | cons b l ih =>
      rw [List.dropWhile_cons] at h
      split at h
      · exact ih h
      · next hb =>
          rw [← Option.some.inj h]
          exact Bool.eq_false_of_not_eq_true hb

theorem trimmed_trim (text : String) : Trimmed text (trim text) := by
  have hcore : (trim text).toList =
      ((text.toList.dropWhile isWhitespace).reverse.dropWhile isWhitespace).reverse :=
    String.toList_ofList
  have hafter : text.toList.dropWhile isWhitespace = (trim text).toList ++
      ((text.toList.dropWhile isWhitespace).reverse.takeWhile isWhitespace).reverse := by
    rw [hcore, ← List.reverse_append, List.takeWhile_append_dropWhile, List.reverse_reverse]
  refine ⟨⟨text.toList.takeWhile isWhitespace,
    ((text.toList.dropWhile isWhitespace).reverse.takeWhile isWhitespace).reverse, ?_, ?_, ?_⟩,
    fun c hc => ?_, fun c hc => ?_⟩
  · rw [List.append_assoc, ← hafter, List.takeWhile_append_dropWhile]
  · exact fun c hc => List.mem_takeWhile_imp hc
  · exact fun c hc => List.mem_takeWhile_imp (List.mem_reverse.mp hc)
  · refine head?_dropWhile (l := text.toList) ?_
    rw [hafter, List.head?_append, hc]
    rfl
  · rw [hcore, List.getLast?_reverse] at hc
    exact head?_dropWhile hc

/-- There is one such core. -/
theorem Trimmed.eq_trim {text core : String} (h : Trimmed text core) : core = trim text := by
  obtain ⟨⟨before, after, htext, hbefore, hafter⟩, hfirst, hlast⟩ := h
  have hfront : text.toList.dropWhile isWhitespace =
      (core.toList ++ after).dropWhile isWhitespace := by
    rw [htext, List.append_assoc, List.dropWhile_append_of_pos hbefore]
  rw [trim, hfront]
  cases hcore : core.toList with
  | nil =>
      have hnone : after.dropWhile isWhitespace = [] := List.dropWhile_eq_nil_iff.mpr hafter
      rw [List.nil_append, hnone]
      exact String.toList_inj.mp hcore
  | cons c rest =>
      rw [hcore] at hfirst hlast
      have hkept : (c :: rest ++ after).dropWhile isWhitespace = c :: rest ++ after := by
        rw [List.cons_append, List.dropWhile_cons_of_neg (by rw [hfirst c rfl]; decide)]
      have hback : (c :: rest).reverse.dropWhile isWhitespace = (c :: rest).reverse := by
        cases hreverse : (c :: rest).reverse with
        | nil => rfl
        | cons d front =>
            refine List.dropWhile_cons_of_neg ?_
            rw [hlast d (by rw [List.getLast?_eq_head?_reverse, hreverse]; rfl)]
            exact Bool.false_ne_true
      rw [hkept, List.reverse_append,
        List.dropWhile_append_of_pos fun d hd => hafter d (List.mem_reverse.mp hd), hback,
        List.reverse_reverse, ← hcore, String.ofList_toList]

/-- Only white space is trimmed to nothing. -/
theorem trim_eq_empty_iff {text : String} : trim text = "" ↔ Blank text := by
  obtain ⟨⟨before, after, htext, hbefore, hafter⟩, hfirst, -⟩ := trimmed_trim text
  constructor
  · intro hnil c hc
    rw [htext, hnil] at hc
    rcases List.mem_append.mp hc with hc | hc
    · rcases List.mem_append.mp hc with hc | hc
      · exact hbefore c hc
      · exact absurd hc List.not_mem_nil
    · exact hafter c hc
  · intro hblank
    cases hcore : (trim text).toList with
    | nil => exact String.toList_inj.mp hcore
    | cons c rest =>
        rw [hcore] at htext hfirst
        have hwhite : isWhitespace c = true := hblank c (by
          rw [htext]
          exact List.mem_append_left _ (List.mem_append_right _ List.mem_cons_self))
        rw [hfirst c rfl] at hwhite
        cases hwhite

/-! ## The box -/

/-- What is reported of a call that failed, when it wrote these texts. -/
inductive Reported (err std status : String) : String → Prop where
  | error {words : String} (hsaid : ¬ Blank err) (hwords : Trimmed err words) :
      Reported err std status words
  | output {words : String} (herr : Blank err) (hsaid : ¬ Blank std)
      (hwords : Trimmed std words) : Reported err std status words
  | status (herr : Blank err) (hstd : Blank std) :
      Reported err std status ("schtasks failed with " ++ status)

theorem reported_describeFailure (out : Output) :
    Reported (fromUtf8Lossy out.stderr) (fromUtf8Lossy out.stdout) out.status
      (describeFailure out) := by
  rw [describeFailure]
  by_cases hblank : trim (fromUtf8Lossy out.stderr) = ""
  · rw [if_pos hblank]
    have herr := trim_eq_empty_iff.mp hblank
    by_cases hsilent : trim (fromUtf8Lossy out.stdout) = ""
    · rw [if_pos hsilent]
      exact .status herr (trim_eq_empty_iff.mp hsilent)
    · rw [if_neg hsilent]
      exact .output herr (fun h => hsilent (trim_eq_empty_iff.mpr h)) (trimmed_trim _)
  · rw [if_neg hblank, if_neg hblank]
    exact .error (fun h => hblank (trim_eq_empty_iff.mpr h)) (trimmed_trim _)

/-- There are words at any rate. -/
theorem Reported.ne_empty {err std status words : String} (h : Reported err std status words) :
    words ≠ "" := by
  have hsome : ∀ {text : String}, ¬ Blank text → Trimmed text words → words ≠ "" := by
    intro text hsaid hwords hnil
    rw [hwords.eq_trim] at hnil
    exact hsaid (trim_eq_empty_iff.mp hnil)
  cases h with
  | error hsaid hwords => exact hsome hsaid hwords
  | output herr hsaid hwords => exact hsome hsaid hwords
  | status herr hstd =>
      intro hnil
      exact absurd (String.append_eq_empty_iff.mp hnil).1 (by decide)

/-- What the box of a reply says, behind its heading. -/
def wordsOf : Except String Output → String
  | .error e => "could not run schtasks: " ++ e
  | .ok out => describeFailure out

theorem wordsOf_ne (reply : Except String Output) : wordsOf reply ≠ "" := by
  cases reply with
  | error e =>
      intro hnil
      exact absurd (String.append_eq_empty_iff.mp hnil).1 (by decide)
  | ok out => exact (reported_describeFailure out).ne_empty

theorem warningOf_failed {schtasks : Schtasks} {args : List String}
    (h : succeeds (schtasks args) = false) :
    warningOf (change schtasks args).value =
      some ("Could not change the autostart task:\n\n" ++ wordsOf (schtasks args)) := by
  rw [change_value]
  cases hreply : schtasks args with
  | error e => rfl
  | ok out =>
      rw [hreply] at h
      have hfailed : out.success = false := h
      dsimp only
      rw [hfailed, if_neg Bool.false_ne_true]
      rfl

variable {Icon ε : Type}

/-- The boxes of a click on the item. -/
theorem boxes_of_toggle {m s : Main Icon} {w : World ε} {clicked rest : List String}
    (hclicks : m.clicks = idAutostart :: rest) (hstep : step m (.click w clicked) = some s) :
    s.boxes = m.boxes ++ (warningOf (change w.first (command m w.user)).value).toList := by
  have hfirst : ∀ {id other}, m.clicks = id :: other → id = idAutostart := fun h =>
    (List.cons.inj (h.symm.trans hclicks)).1
  cases step_cases hstep with
  | refreshed hstage hother hpoll => exact absurd (hfirst hother) (by decide)
  | toggled hstage hother => rfl
  | exited hstage hother => exact absurd (hfirst hother) (by decide)
  | ignored hstage hother hid => exact absurd (hfirst hother) hid.2.1

/-- **THE WORDS OF A FAILURE**.  A click on the item whose command fails puts
    up one box, which is never without a word.  If the command could not be
    run the box says why.  Otherwise it says, without the white space around
    it, what the bytes of the error output read as, or if that is blank those
    of the output, or if both are the exit status.  Bytes that encode a text
    read as that text. -/
theorem failure_words {m s : Main Icon} {w : World ε} {clicked rest : List String}
    (hclicks : m.clicks = idAutostart :: rest) (hstep : step m (.click w clicked) = some s)
    (hfailed : succeeds (w.first (command m w.user)) = false) :
    ∃ words, s.boxes = m.boxes ++ ["Could not change the autostart task:\n\n" ++ words] ∧
      words ≠ "" ∧
      (∀ e, w.first (command m w.user) = .error e → words = "could not run schtasks: " ++ e) ∧
      (∀ out, w.first (command m w.user) = .ok out →
        Reported (fromUtf8Lossy out.stderr) (fromUtf8Lossy out.stdout) out.status words) ∧
      ∀ text, fromUtf8Lossy (encodeUtf8 text) = text := by
  have hboxes := boxes_of_toggle hclicks hstep
  rw [warningOf_failed hfailed] at hboxes
  refine ⟨wordsOf (w.first (command m w.user)), hboxes, wordsOf_ne _, ?_, ?_,
    fromUtf8Lossy_encodeUtf8⟩
  · intro e he
    rw [he]
    rfl
  · intro out hout
    rw [hout]
    exact reported_describeFailure out

/-- A refusal in the code page of the console. -/
def refused : Output :=
  { success := false, status := "exit code: 1", stdout := []
    stderr := [0x41, 0x63, 0x63, 0x8A, 0x73, 0x20, 0x72, 0x65, 0x66, 0x75, 0x73, 0x82, 0x0D, 0x0A] }

def refusingWorld : World String := { sampleWorld with first := fun _ => .ok refused }

/-- The letters that are no ASCII are lost, and the line end is. -/
theorem sample_failure : ∃ m t s, startup id sampleLaunch = .running m ∧
    step m (.message ⟨wmTimer, 1⟩ sampleWorld [idAutostart]) = some t ∧
    step t (.click refusingWorld []) = some s ∧
    s.boxes = t.boxes ++ ["Could not change the autostart task:\n\nAcc\uFFFDs refus\uFFFD"] := by
  obtain ⟨m, -, hstart, -⟩ := sample_run
  obtain ⟨icons, t₀, out, hm⟩ := startup_cases hstart
  obtain ⟨t, hmessage, hdraining, hqueued⟩ :=
    message_enabled hm.stage ⟨wmTimer, 1⟩ sampleWorld [idAutostart]
  rw [hm.clicks] at hqueued
  obtain ⟨s, hclick, -⟩ := click_enabled hdraining hqueued refusingWorld
  obtain ⟨words, hboxes, -, -, hwords, -⟩ := failure_words hqueued hclick rfl
  have hsaid : words = "Acc\uFFFDs refus\uFFFD" := by
    cases hwords refused rfl with
    | error hsaid hwords =>
        rw [hwords.eq_trim]
        decide
    | output herr hsaid hwords => exact absurd (trim_eq_empty_iff.mpr herr) (by decide)
    | status herr hstd => exact absurd (trim_eq_empty_iff.mpr herr) (by decide)
  rw [hsaid] at hboxes
  exact ⟨m, t, s, hstart, hmessage, hclick, hboxes⟩

end WakeFailure
