import WakeWatch.GroupingProofs
import WakeWatch.Support.Text

/-! # What a description says

    The identity of a row is text.  On what the decoder returns the text can
    be read back: the detail determines the caller's type, its pid and its
    name, so requests of one row agree in all three. -/

namespace WakeDescribe

open FormatText WakePower WakeDevPath WakeModel WakeGrouping

/-! ## The texts -/

/-- The name a call shows: the driver's own, or the translated path. -/
def shownName (os : DriveTable) (c : Call) : String :=
  if c.1.callerType = callerKernel then c.1.name else (c.2.translate os c.1.name).1

def labelText (callerType : UInt32) (name : String) : String :=
  if callerType = callerKernel then
    if name = "" then "Kernel (legacy caller)" else name
  else if name = "" then "Unknown process" else fileName name

def kindText (callerType : UInt32) : String :=
  if callerType = callerService then "Service" else "Process"

def pidText : Option UInt32 → String
  | some pid => " (pid " ++ toString pid ++ "): "
  | none => ": "

def detailText (callerType : UInt32) (pid : Option UInt32) (name : String) : String :=
  if callerType = callerKernel then
    if name = "" then "Kernel driver" else "Driver: " ++ name
  else kindText callerType ++ (pidText pid ++ name)

/-- **A DESCRIPTION** is a function of the type, the pid and the shown name. -/
theorem identityOf_eq (os : DriveTable) (c : Call) :
    identityOf os c = ⟨labelText c.1.callerType (shownName os c),
      detailText c.1.callerType c.1.pid (shownName os c), c.1.reason⟩ := by
  obtain ⟨r, paths⟩ := c
  by_cases hk : r.callerType = callerKernel
  · by_cases hn : r.name = ""
    · simp only [identityOf, describe, labelText, detailText, shownName, if_pos hk, if_pos hn]
    · simp only [identityOf, describe, labelText, detailText, shownName, if_pos hk, if_neg hn]
  · simp only [identityOf, describe, labelText, detailText, shownName, kindText, if_neg hk]
    cases r.pid with
    | some pid => simp only [pidText, String.append_assoc]
    | none => simp only [pidText, String.append_assoc]

/-! ## Reading the detail back -/

/-- What the decoder guarantees of a request, as far as its texts go. -/
structure Decoded (r : RawRequest) : Prop where
  caller : r.callerType ≤ callerService
  noPid : r.callerType = callerKernel → r.pid = none

/-- The first character of the detail tells what kind of caller it describes. -/
def detailTag (callerType : UInt32) (name : String) : Char :=
  if callerType = callerKernel then (if name = "" then 'K' else 'D')
  else if callerType = callerService then 'S' else 'P'

theorem detailText_leadsWith (callerType : UInt32) (pid : Option UInt32) (name : String) :
    LeadsWith (detailTag callerType name) (detailText callerType pid name) := by
  unfold detailTag detailText kindText
  split
  · split
    · rfl
    · exact LeadsWith.append (s := "Driver: ") rfl _
  · split
    · exact LeadsWith.append (s := "Service") rfl _
    · exact LeadsWith.append (s := "Process") rfl _

theorem pidText_inj {pid pid' : Option UInt32} {name name' : String}
    (h : pidText pid ++ name = pidText pid' ++ name') : pid = pid' ∧ name = name' := by
  have hsome : ∀ p : UInt32, LeadsWith ' ' (pidText (some p)) := fun p =>
    (LeadsWith.append (s := " (pid ") rfl _).append _
  have hnone : LeadsWith ':' (pidText none) := rfl
  cases pid with
  | none =>
      cases pid' with
      | none => exact ⟨rfl, (String.append_right_inj _).mp h⟩
      | some p' =>
          exact absurd ((hnone.append name).unique (h ▸ (hsome p').append name')) (by decide)
  | some p =>
      cases pid' with
      | none =>
          exact absurd (((hsome p).append name).unique (h ▸ hnone.append name')) (by decide)
      | some p' =>
          -- the closing bracket ends the digits
          have hchars : (toString p).toList ++ ')' :: (':' :: ' ' :: name.toList) =
              (toString p').toList ++ ')' :: (':' :: ' ' :: name'.toList) := by
            have hlist := congrArg String.toList h
            simp only [pidText, String.toList_append, List.append_assoc] at hlist
            exact (List.append_right_inj _).mp hlist
          obtain ⟨hp, htail⟩ := decimal_delimited_inj (by decide) hchars
          obtain ⟨-, htail⟩ := List.cons.inj htail
          obtain ⟨-, htail⟩ := List.cons.inj htail
          exact ⟨congrArg some hp, String.toList_inj.mp htail⟩

/-- For one caller and one pid the detail tells names apart. -/
theorem detailText_name_inj {callerType : UInt32} {pid : Option UInt32} {name name' : String}
    (h : detailText callerType pid name = detailText callerType pid name') :
    name = name' := by
  have htag : detailTag callerType name = detailTag callerType name' :=
    (detailText_leadsWith callerType pid name).unique
      (h ▸ detailText_leadsWith callerType pid name')
  unfold detailTag at htag
  unfold detailText at h
  by_cases hk : callerType = callerKernel
  · rw [if_pos hk, if_pos hk] at htag h
    by_cases hn : name = ""
    · by_cases hn' : name' = ""
      · rw [hn, hn']
      · rw [if_pos hn, if_neg hn'] at htag
        exact absurd htag (by decide)
    · by_cases hn' : name' = ""
      · rw [if_neg hn, if_pos hn'] at htag
        exact absurd htag (by decide)
      · rw [if_neg hn, if_neg hn'] at h
        exact (String.append_right_inj _).mp h
  · rw [if_neg hk, if_neg hk] at h
    exact (pidText_inj ((String.append_right_inj _).mp h)).2

theorem Decoded.eq_process {r : RawRequest} (hr : Decoded r)
    (hkernel : r.callerType ≠ callerKernel) (hservice : r.callerType ≠ callerService) :
    r.callerType = callerProcess := by
  have hle := UInt32.le_iff_toNat_le.mp hr.caller
  rw [ne_eq, ← UInt32.toNat_inj] at hkernel hservice
  rw [← UInt32.toNat_inj]
  unfold callerKernel callerService callerProcess at *
  simp only [UInt32.reduceToNat] at *
  omega

/-- The tag tells the callers that the decoder admits apart. -/
theorem callerType_eq_of_tag {r r' : RawRequest} (hr : Decoded r) (hr' : Decoded r')
    {name name' : String}
    (h : detailTag r.callerType name = detailTag r'.callerType name') :
    r.callerType = r'.callerType := by
  have hkernel : ∀ (caller : UInt32) name, caller = callerKernel →
      detailTag caller name = 'K' ∨ detailTag caller name = 'D' := by
    intro caller name hk
    rw [detailTag, if_pos hk]
    split
    · exact Or.inl rfl
    · exact Or.inr rfl
  have hother : ∀ (caller : UInt32) name, caller ≠ callerKernel →
      detailTag caller name = if caller = callerService then 'S' else 'P' :=
    fun caller name hk => if_neg hk
  by_cases hk : r.callerType = callerKernel <;> by_cases hk' : r'.callerType = callerKernel
  · rw [hk, hk']
  · rw [hother _ _ hk'] at h
    rcases hkernel _ name hk with ht | ht <;> rw [ht] at h <;> split at h <;>
      exact absurd h (by decide)
  · rw [hother _ _ hk] at h
    rcases hkernel _ name' hk' with ht | ht <;> rw [ht] at h <;> split at h <;>
      exact absurd h (by decide)
  · -- neither is a kernel caller, so each is a service or a process
    rw [hother _ _ hk, hother _ _ hk'] at h
    by_cases hs : r.callerType = callerService <;>
      by_cases hs' : r'.callerType = callerService
    · rw [hs, hs']
    · rw [if_pos hs, if_neg hs'] at h
      exact absurd h (by decide)
    · rw [if_neg hs, if_pos hs'] at h
      exact absurd h (by decide)
    · rw [hr.eq_process hk hs, hr'.eq_process hk' hs']

/-- **THE DETAIL READ BACK**: caller, pid and shown name. -/
theorem detailText_inj {r r' : RawRequest} (hr : Decoded r) (hr' : Decoded r')
    {name name' : String}
    (h : detailText r.callerType r.pid name = detailText r'.callerType r'.pid name') :
    r.callerType = r'.callerType ∧ r.pid = r'.pid ∧ name = name' := by
  have hcaller : r.callerType = r'.callerType :=
    callerType_eq_of_tag hr hr' ((detailText_leadsWith r.callerType r.pid name).unique
      (h ▸ detailText_leadsWith r'.callerType r'.pid name'))
  have hpid : r.pid = r'.pid := by
    by_cases hk : r.callerType = callerKernel
    · rw [hr.noPid hk, hr'.noPid (hcaller ▸ hk)]
    · unfold detailText at h
      rw [← hcaller, if_neg hk, if_neg hk] at h
      exact (pidText_inj ((String.append_right_inj _).mp h)).1
  refine ⟨hcaller, hpid, ?_⟩
  rw [← hcaller, ← hpid] at h
  exact detailText_name_inj h

end WakeDescribe
