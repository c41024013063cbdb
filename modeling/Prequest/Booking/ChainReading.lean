import Prequest.Booking.EditPlan

/-!
# Reading an approval chain

The planner of an edit reads the approval rows of a booking back as a
configuration: the live rows of the newest chain give the approvers, and the
spelling of `parallel_group` gives the threshold.

* `loadCurrentApprovalChain_eq`: what is read when there is such a chain.
-/

namespace Prequest.Booking

open Prequest.Lib Prequest.Approval

/-! ## Equal configurations -/

instance : IsTrans Approver beforeApprover where
  trans a b c := by
    unfold beforeApprover
    rintro (hab | ⟨hab, hab'⟩) (hbc | ⟨hbc, hbc'⟩)
    · exact .inl (Nat.lt_trans hab hbc)
    · exact .inl (hbc ▸ hab)
    · exact .inl (hab ▸ hbc)
    · exact .inr ⟨hab.trans hbc, Nat.le_trans hab' hbc'⟩

theorem ApproverType.rank_injective {s t : ApproverType} (h : s.rank = t.rank) : s = t := by
  cases s <;> cases t <;> first | rfl | cases h

instance : Std.Total beforeApprover where
  total a b := by
    unfold beforeApprover
    rcases Nat.lt_trichotomy a.type.rank b.type.rank with hlt | heq | hgt
    · exact .inl (.inl hlt)
    · have htype := ApproverType.rank_injective heq
      rcases Nat.le_total a.id b.id with hle | hle
      · exact .inl (.inr ⟨htype, hle⟩)
      · exact .inr (.inr ⟨htype.symm, hle⟩)
    · exact .inr (.inl hgt)

instance : Std.Antisymm beforeApprover where
  antisymm a b := by
    unfold beforeApprover
    rintro (hab | ⟨hab, hab'⟩) (hba | ⟨hba, hba'⟩)
    · omega
    · rw [hba] at hab
      omega
    · rw [hab] at hba
      omega
    · obtain ⟨type, id⟩ := a
      obtain ⟨type', id'⟩ := b
      obtain rfl : type = type' := hab
      obtain rfl : id = id' := Nat.le_antisymm hab' hba'
      rfl

theorem canonicalApproverSort_eq_iff {as bs : List Approver} :
    canonicalApproverSort as = canonicalApproverSort bs ↔ as.Perm bs := by
  unfold canonicalApproverSort
  constructor
  · intro h
    have has := List.perm_insertionSort beforeApprover as
    rw [h] at has
    exact has.symm.trans (List.perm_insertionSort beforeApprover bs)
  · intro h
    refine List.Perm.eq_of_pairwise' (List.pairwise_insertionSort beforeApprover as)
      (List.pairwise_insertionSort beforeApprover bs) ?_
    exact (List.perm_insertionSort beforeApprover as).trans
      (h.trans (List.perm_insertionSort beforeApprover bs).symm)

theorem chainConfigsEqual_iff {a b : ApprovalConfig} :
    chainConfigsEqual (some a) (some b) = true ↔
      a.threshold.getD .all = b.threshold.getD .all ∧
        a.requiredApprovers.Perm b.requiredApprovers := by
  rw [chainConfigsEqual, Bool.and_eq_true, beq_iff_eq, beq_iff_eq, canonicalApproverSort_eq_iff]

/-! ## The newest chain -/

theorem maxCreatedAt_foldl (rows : List ApprovalRow) (m : Nat) :
    rows.foldl (fun m r => max m r.createdAt) m = max m (maxCreatedAt rows) := by
  unfold maxCreatedAt
  induction rows generalizing m with
  | nil => simp
  | cons r rows ih =>
    rw [List.foldl_cons, List.foldl_cons, ih, ih (max 0 r.createdAt)]
    omega

theorem maxCreatedAt_cons (r : ApprovalRow) (rows : List ApprovalRow) :
    maxCreatedAt (r :: rows) = max r.createdAt (maxCreatedAt rows) := by
  rw [maxCreatedAt, List.foldl_cons, maxCreatedAt_foldl]
  omega

theorem le_maxCreatedAt {rows : List ApprovalRow} {r : ApprovalRow} (h : r ∈ rows) :
    r.createdAt ≤ maxCreatedAt rows := by
  induction rows with
  | nil => exact absurd h List.not_mem_nil
  | cons s rows ih =>
    rw [maxCreatedAt_cons]
    rcases List.mem_cons.mp h with rfl | h
    · omega
    · have := ih h
      omega

theorem maxCreatedAt_lt {rows : List ApprovalRow} {m : Nat} (hsome : rows ≠ [])
    (h : ∀ r ∈ rows, r.createdAt < m) : maxCreatedAt rows < m := by
  induction rows with
  | nil => exact absurd rfl hsome
  | cons r rows ih =>
    obtain ⟨hr, hrows⟩ := List.forall_mem_cons.mp h
    rw [maxCreatedAt_cons]
    by_cases hnil : rows = []
    · subst hnil
      exact Nat.max_lt.mpr ⟨hr, Nat.lt_of_le_of_lt (Nat.zero_le _) hr⟩
    · exact Nat.max_lt.mpr ⟨hr, ih hnil hrows⟩

def newerBucket (newest : Option (List ApprovalRow)) (bucket : List ApprovalRow) :
    Option (List ApprovalRow) :=
  match newest with
  | none => some bucket
  | some best => if maxCreatedAt best < maxCreatedAt bucket then some bucket else some best

theorem newestBucket_eq {buckets : List (List ApprovalRow)} {b : List ApprovalRow}
    (hmem : b ∈ buckets)
    (hnewest : ∀ b' ∈ buckets, b' ≠ b → maxCreatedAt b' < maxCreatedAt b) :
    newestBucket buckets = b := by
  -- once the bucket is taken it stays, and before that a smaller one is held
  have hkept : ∀ buckets : List (List ApprovalRow),
      (∀ b' ∈ buckets, b' ≠ b → maxCreatedAt b' < maxCreatedAt b) →
        buckets.foldl newerBucket (some b) = some b := by
    intro buckets
    induction buckets with
    | nil => intro _; rfl
    | cons b' buckets ih =>
      intro h
      obtain ⟨hb', hbuckets⟩ := List.forall_mem_cons.mp h
      have hstep : newerBucket (some b) b' = some b := by
        by_cases heq : b' = b
        · subst heq
          exact if_neg (Nat.lt_irrefl _)
        · exact if_neg (Nat.lt_asymm (hb' heq))
      rw [List.foldl_cons, hstep]
      exact ih hbuckets
  have htaken : ∀ (buckets : List (List ApprovalRow)) (held : Option (List ApprovalRow)),
      b ∈ buckets → (∀ b' ∈ buckets, b' ≠ b → maxCreatedAt b' < maxCreatedAt b) →
        (∀ best, held = some best → best ≠ b → maxCreatedAt best < maxCreatedAt b) →
          buckets.foldl newerBucket held = some b := by
    intro buckets
    induction buckets with
    | nil => intro _ h; exact absurd h List.not_mem_nil
    | cons b' buckets ih =>
      intro held hmem h hheld
      obtain ⟨hb', hbuckets⟩ := List.forall_mem_cons.mp h
      rw [List.foldl_cons]
      by_cases heq : b' = b
      · subst heq
        have hstep : newerBucket held b' = some b' := by
          cases held with
          | none => rfl
          | some best =>
            by_cases hbest : best = b'
            · subst hbest
              exact if_neg (Nat.lt_irrefl _)
            · exact if_pos (hheld best rfl hbest)
        rw [hstep]
        exact hkept buckets hbuckets
      · refine ih _ ((List.mem_cons.mp hmem).resolve_left (Ne.symm heq)) hbuckets ?_
        intro best hbest hne
        cases held with
        | none =>
          obtain rfl := Option.some.inj hbest
          exact hb' hne
        | some held =>
          by_cases hlt : maxCreatedAt held < maxCreatedAt b'
          · rw [show newerBucket (some held) b' = some b' from if_pos hlt] at hbest
            obtain rfl := Option.some.inj hbest
            exact hb' hne
          · rw [show newerBucket (some held) b' = some held from if_neg hlt] at hbest
            obtain rfl := Option.some.inj hbest
            exact hheld held rfl hne
  have hfold := htaken buckets none hmem hnewest (fun best h => absurd h (by simp))
  show (buckets.foldl newerBucket none).getD [] = b
  rw [hfold]
  rfl

def chainRows (approvals : Table ApprovalRow) (chainId : Nat) : List ApprovalRow :=
  approvals.rows.filter fun r => r.approvalChainId == some chainId

/-- The chain is about the booking, and newer than every other row of it that is live. -/
structure NewestChain (approvals : Table ApprovalRow) (bookingId chainId : Nat) : Prop where
  about : ∀ r ∈ chainRows approvals chainId, aboutBooking bookingId r = true
  newest : ∀ r ∈ approvals.rows, aboutBooking bookingId r = true → isLive r = true →
    r.approvalChainId ≠ some chainId →
      ∀ s ∈ chainRows approvals chainId, r.createdAt < s.createdAt

theorem loadCurrentApprovalChain_eq {approvals : Table ApprovalRow} {bookingId chainId : Nat}
    (h : NewestChain approvals bookingId chainId)
    (hlive : (chainRows approvals chainId).filter isLive ≠ [])
    (hasked : ∀ r ∈ chainRows approvals chainId, (approverOf r).isSome = true) :
    ∃ approvers, approvers.Perm (((chainRows approvals chainId).filter isLive).filterMap approverOf) ∧
      loadCurrentApprovalChain approvals bookingId = some
        { requiredApprovers := approvers
          threshold := some (
            if ((chainRows approvals chainId).filter isLive).any fun r =>
              r.parallelGroup == some (parallelMarker bookingId) then .all else .any) } := by
  let live := (approvals.rows.filter fun r => aboutBooking bookingId r && isLive r)
  let rows := live.insertionSort newerRow
  let bucket := rows.filter fun r => r.approvalChainId == some chainId
  have hrows : rows.Perm live := List.perm_insertionSort newerRow live
  have hbucket : bucket.Perm ((chainRows approvals chainId).filter isLive) := by
    refine (hrows.filter _).trans (List.Perm.of_eq ?_)
    rw [List.filter_filter, chainRows, List.filter_filter]
    refine List.filter_congr fun r hr => ?_
    by_cases hchain : r.approvalChainId = some chainId
    · have habout := h.about r (List.mem_filter.mpr ⟨hr, by simp [hchain]⟩)
      simp [hchain, habout]
    · simp [beq_false_of_ne hchain]
  have hsome : bucket ≠ [] := fun hnil => hlive (by
    rw [hnil] at hbucket
    exact hbucket.symm.eq_nil)
  have hnewest : newestBucket (bucketsOf rows) = bucket := by
    refine newestBucket_eq ?_ ?_
    · obtain ⟨r, hr⟩ := List.exists_mem_of_ne_nil bucket hsome
      obtain ⟨hmem, hchain⟩ := List.mem_filter.mp hr
      refine List.mem_map.mpr ⟨some chainId, ?_, rfl⟩
      exact List.mem_eraseDups.mpr (List.mem_map.mpr ⟨r, hmem, beq_iff_eq.mp hchain⟩)
    · intro b' hb' hne
      obtain ⟨other, hother, rfl⟩ := List.mem_map.mp hb'
      obtain ⟨r, hr, hchain⟩ := List.mem_map.mp (List.mem_eraseDups.mp hother)
      have hdiffer : other ≠ some chainId := fun heq => hne (by rw [heq])
      obtain ⟨s, hs⟩ := List.exists_mem_of_ne_nil bucket hsome
      have hschain := (List.mem_filter.mp ((hbucket.mem_iff).mp hs)).1
      refine Nat.lt_of_lt_of_le (maxCreatedAt_lt ?_ fun t ht => ?_) (le_maxCreatedAt hs)
      · exact List.ne_nil_of_mem (List.mem_filter.mpr ⟨hr, beq_iff_eq.mpr hchain⟩)
      · obtain ⟨htrows, htchain⟩ := List.mem_filter.mp ht
        obtain ⟨htmem, htlive⟩ := List.mem_filter.mp (hrows.mem_iff.mp htrows)
        obtain ⟨habout, htlive⟩ := (Bool.and_eq_true _ _).mp htlive
        refine h.newest t htmem habout htlive ?_ s hschain
        rw [beq_iff_eq.mp htchain]
        exact hdiffer
  refine ⟨bucket.filterMap approverOf, hbucket.filterMap approverOf, ?_⟩
  have happrovers : (bucket.filterMap approverOf).isEmpty = false := by
    obtain ⟨r, hr⟩ := List.exists_mem_of_ne_nil bucket hsome
    obtain ⟨approver, happrover⟩ := Option.isSome_iff_exists.mp
      (hasked r (List.mem_filter.mp (hbucket.mem_iff.mp hr)).1)
    rw [List.isEmpty_eq_false_iff]
    exact List.ne_nil_of_mem (List.mem_filterMap.mpr ⟨r, hr, happrover⟩)
  have hany : (bucket.any fun r => r.parallelGroup == some (parallelMarker bookingId)) =
      ((chainRows approvals chainId).filter isLive).any fun r =>
        r.parallelGroup == some (parallelMarker bookingId) := by
    rw [Bool.eq_iff_iff, List.any_eq_true, List.any_eq_true]
    exact exists_congr fun r => and_congr_left fun _ => hbucket.mem_iff
  have hread : loadCurrentApprovalChain approvals bookingId =
      if ((newestBucket (bucketsOf rows)).filterMap approverOf).isEmpty then none
      else some
        { requiredApprovers := (newestBucket (bucketsOf rows)).filterMap approverOf
          threshold := some (
            if (newestBucket (bucketsOf rows)).any fun r =>
              r.parallelGroup == some (parallelMarker bookingId) then .all else .any) } := rfl
  rw [hread, hnewest, happrovers, hany]
  rfl

end Prequest.Booking
