import Prequest.Booking.ChainReading
import Prequest.Lib.FirstSeen
import Prequest.Lib.Sorting
import Prequest.Rules.Resolver

/-!
# Comparing approval configurations

The edit path compares the approvers a rule asks for with those a booking has, and
takes the fingerprint of an outcome to see whether the rules still say the same. Both
sort the approvers by type and id. The comparison then looks at type and id alone; the
fingerprint hashes the sorted objects as `JSON.stringify` writes them, with whatever
other keys they have and in the order of their keys.

* `comparisonLaw_iff`: equal configurations have one fingerprint exactly when approvers of one type
  and id are written alike.
-/

namespace Prequest.Booking.Objects

open Prequest.Lib Prequest.Approval Prequest.Rules

/-- An entry of `required_approvers`. Texts are of type `ι`. -/
structure Approver (ι κ : Type) where
  type : ApproverType
  id : ι
  /-- The order in which the object has its keys, and the other keys it has. -/
  layout : κ
  deriving DecidableEq, Repr

structure ApprovalConfig (ι κ : Type) where
  requiredApprovers : Option (List (Approver ι κ))
  threshold : Option ChainThreshold
  deriving DecidableEq, Repr

/-- The fields of an outcome that are compared or hashed. -/
structure ResolveOutcome (ι κ : Type) where
  effects : List RuleEffect
  matchedRuleIds : List ι
  approvalConfig : Option (ApprovalConfig ι κ)
  final : RuleOutcome
  deriving DecidableEq, Repr

variable {ι κ : Type}

/-- `required_approvers ?? []`. -/
def ApprovalConfig.approvers (c : ApprovalConfig ι κ) : List (Approver ι κ) :=
  c.requiredApprovers.getD []

def Approver.key (a : Approver ι κ) : ApproverType × ι := (a.type, a.id)

variable [LinearOrder ι] {o o' : ResolveOutcome ι κ} {a b : ApprovalConfig ι κ}

/-- `(type, id)` in order. -/
def beforeApprover (a b : Approver ι κ) : Prop :=
  a.type.rank < b.type.rank ∨ a.type = b.type ∧ a.id ≤ b.id

instance (a b : Approver ι κ) : Decidable (beforeApprover a b) := by
  unfold beforeApprover
  infer_instance

def canonicalApproverSort (approvers : List (Approver ι κ)) : List (Approver ι κ) :=
  approvers.insertionSort beforeApprover

/-- The loop over two sorted lists. -/
def sameInOrder (as bs : List (Approver ι κ)) : Bool :=
  as.length == bs.length && (as.zip bs).all fun p => p.1.type == p.2.type && p.1.id == p.2.id

def chainConfigsEqual : Option (ApprovalConfig ι κ) → Option (ApprovalConfig ι κ) → Bool
  | none, none => true
  | some a, some b =>
      a.threshold.getD .all == b.threshold.getD .all &&
        sameInOrder (canonicalApproverSort a.approvers) (canonicalApproverSort b.approvers)
  | _, _ => false

/-! ## The fingerprint -/

def effectRank : RuleEffect → Nat
  | .allowOverride => 0
  | .deny => 1
  | .requireApproval => 2
  | .warn => 3

/-- What is hashed. -/
structure Projection (ι κ : Type) where
  final : RuleOutcome
  matchedRuleIds : List ι
  effects : List RuleEffect
  approval : Option (List (Approver ι κ) × ChainThreshold)

def projection (outcome : ResolveOutcome ι κ) : Projection ι κ where
  final := outcome.final
  matchedRuleIds := outcome.matchedRuleIds.insertionSort (· ≤ ·)
  effects := outcome.effects.eraseDups.insertionSort fun a b => effectRank a ≤ effectRank b
  approval := outcome.approvalConfig.map fun c =>
    (canonicalApproverSort c.approvers, c.threshold.getD .all)

/-- The fingerprint; `digest` is the SHA-256 of `JSON.stringify`. -/
def computeRuleOutcomeFingerprint (digest : Projection ι κ → String)
    (outcome : ResolveOutcome ι κ) : String :=
  digest (projection outcome)

/-! ## The law -/

structure Agree (o o' : ResolveOutcome ι κ) : Prop where
  final : o.final = o'.final
  matchedRuleIds : o.matchedRuleIds.Perm o'.matchedRuleIds
  effects : ∀ e, e ∈ o.effects ↔ e ∈ o'.effects

def SameChain (a b : ApprovalConfig ι κ) : Prop :=
  a.threshold.getD .all = b.threshold.getD .all ∧
    (a.approvers.map Approver.key).Perm (b.approvers.map Approver.key)

/-- The laws of the comparison, and of the fingerprints of two outcomes. -/
structure ComparisonLaw (o o' : ResolveOutcome ι κ) : Prop where
  refl : ∀ a : Option (ApprovalConfig ι κ), chainConfigsEqual a a = true
  symm : ∀ a b : Option (ApprovalConfig ι κ), chainConfigsEqual a b = true →
    chainConfigsEqual b a = true
  trans : ∀ a b c : Option (ApprovalConfig ι κ), chainConfigsEqual a b = true →
    chainConfigsEqual b c = true → chainConfigsEqual a c = true
  permuted : ∀ (a : ApprovalConfig ι κ) (l : List (Approver ι κ)) (b : Option (ApprovalConfig ι κ)),
    a.approvers.Perm l →
      chainConfigsEqual (some { a with requiredApprovers := some l }) b = chainConfigsEqual (some a) b
  sound : ∀ a b : ApprovalConfig ι κ, ¬SameChain a b → chainConfigsEqual (some a) (some b) = false
  appears : ∀ a : ApprovalConfig ι κ,
    chainConfigsEqual none (some a) = false ∧ chainConfigsEqual (some a) none = false
  fingerprint : Agree o o' → chainConfigsEqual o.approvalConfig o'.approvalConfig = true →
    ∀ digest, computeRuleOutcomeFingerprint digest o = computeRuleOutcomeFingerprint digest o'

/-- Approvers of one type and id are the same objects in the same sequence. -/
def WrittenAlike (a b : ApprovalConfig ι κ) : Prop :=
  ∀ k, (a.approvers.filter fun x => x.key == k) = b.approvers.filter fun x => x.key == k

/-- Where the outcomes agree and ask for the same chain, its approvers are written alike. -/
def ChainWrittenAlike (o o' : ResolveOutcome ι κ) : Prop :=
  Agree o o' → ∀ a b, o.approvalConfig = some a → o'.approvalConfig = some b →
    SameChain a b → WrittenAlike a b

/-! ## Sorting by type and id -/

def beforeKey (k l : ApproverType × ι) : Prop := k.1.rank < l.1.rank ∨ k.1 = l.1 ∧ k.2 ≤ l.2

instance (k l : ApproverType × ι) : Decidable (beforeKey k l) := by
  unfold beforeKey
  infer_instance

instance : IsTrans (ApproverType × ι) beforeKey where
  trans a b c := by
    unfold beforeKey
    rintro (hab | ⟨hab, hab'⟩) (hbc | ⟨hbc, hbc'⟩)
    · exact Or.inl (hab.trans hbc)
    · exact Or.inl (hbc ▸ hab)
    · exact Or.inl (hab ▸ hbc)
    · exact Or.inr ⟨hab.trans hbc, hab'.trans hbc'⟩

instance : Std.Total (beforeKey (ι := ι)) where
  total a b := by
    unfold beforeKey
    rcases lt_trichotomy a.1.rank b.1.rank with hlt | heq | hgt
    · exact Or.inl (Or.inl hlt)
    · have htype := ApproverType.rank_injective heq
      rcases le_total a.2 b.2 with hle | hle
      · exact Or.inl (Or.inr ⟨htype, hle⟩)
      · exact Or.inr (Or.inr ⟨htype.symm, hle⟩)
    · exact Or.inr (Or.inl hgt)

theorem sameKey_iff {k l : ApproverType × ι} : beforeKey k l ∧ beforeKey l k ↔ k = l := by
  unfold beforeKey
  constructor
  · rintro ⟨hkl | ⟨hkl, hkl'⟩, hlk | ⟨hlk, hlk'⟩⟩
    · exact absurd hkl hlk.asymm
    · rw [hlk] at hkl
      exact absurd hkl (lt_irrefl _)
    · rw [hkl] at hlk
      exact absurd hlk (lt_irrefl _)
    · exact Prod.ext hkl (le_antisymm hkl' hlk')
  · rintro rfl
    exact ⟨Or.inr ⟨rfl, le_rfl⟩, Or.inr ⟨rfl, le_rfl⟩⟩

instance : IsTrans (Approver ι κ) beforeApprover where
  trans a b c := fun hab hbc => trans_of beforeKey (a := a.key) (b := b.key) (c := c.key) hab hbc

instance : Std.Total (beforeApprover (ι := ι) (κ := κ)) where
  total a b := Std.Total.total (r := beforeKey) a.key b.key

section

variable {as bs : List (Approver ι κ)}

theorem map_key_sort (as : List (Approver ι κ)) :
    (canonicalApproverSort as).map Approver.key = (as.map Approver.key).insertionSort beforeKey :=
  List.map_insertionSort _ _ _ _ fun _ _ _ _ => Iff.rfl

theorem sameInOrder_iff : sameInOrder as bs = true ↔ as.map Approver.key = bs.map Approver.key := by
  unfold sameInOrder
  induction as generalizing bs with
  | nil => cases bs <;> simp
  | cons a as ih =>
    cases bs with
    | nil => simp
    | cons b bs =>
      have hrest := @ih bs
      simp only [Bool.and_eq_true, beq_iff_eq] at hrest
      simp only [List.length_cons, List.zip_cons_cons, List.all_cons, List.map_cons,
        List.cons.injEq, Bool.and_eq_true, beq_iff_eq, Nat.add_right_cancel_iff, ← hrest,
        Approver.key, Prod.mk.injEq]
      tauto

theorem sameInOrder_sort_iff :
    sameInOrder (canonicalApproverSort as) (canonicalApproverSort bs) = true ↔
      (as.map Approver.key).Perm (bs.map Approver.key) := by
  rw [sameInOrder_iff, map_key_sort, map_key_sort]
  constructor
  · intro h
    have hperm := List.perm_insertionSort beforeKey (as.map Approver.key)
    rw [h] at hperm
    exact hperm.symm.trans (List.perm_insertionSort beforeKey _)
  · intro h
    exact insertionSort_eq_of_perm h fun k _ l _ hkl hlk => sameKey_iff.mp ⟨hkl, hlk⟩

end

theorem chainConfigsEqual_iff : chainConfigsEqual (some a) (some b) = true ↔ SameChain a b := by
  rw [chainConfigsEqual, Bool.and_eq_true, beq_iff_eq, sameInOrder_sort_iff]
  rfl

/-! ## The fingerprint of the sorted objects -/

section

variable {as bs : List (Approver ι κ)}

theorem tiesWith_eq (c : Approver ι κ) (as : List (Approver ι κ)) :
    tiesWith beforeApprover c as = as.filter fun x => x.key == c.key := by
  refine List.filter_congr fun x _ => ?_
  rw [Bool.eq_iff_iff, Bool.and_eq_true, decide_eq_true_eq, decide_eq_true_eq, beq_iff_eq]
  exact sameKey_iff (k := x.key) (l := c.key)

theorem canonicalApproverSort_eq_iff :
    canonicalApproverSort as = canonicalApproverSort bs ↔
      ∀ k, (as.filter fun x => x.key == k) = bs.filter fun x => x.key == k := by
  unfold canonicalApproverSort
  rw [insertionSort_eq_iff]
  constructor
  · intro h k
    -- A key that neither list has leaves nothing of both.
    by_cases hk : ∃ c ∈ as ++ bs, c.key = k
    · obtain ⟨c, _, rfl⟩ := hk
      have hc := h c
      rwa [tiesWith_eq, tiesWith_eq] at hc
    · have hnone : ∀ l : List (Approver ι κ), (∀ x ∈ l, x ∈ as ++ bs) →
          (l.filter fun x => x.key == k) = [] := by
        intro l hl
        refine List.filter_eq_nil_iff.mpr fun x hx hkey => ?_
        exact hk ⟨x, hl x hx, beq_iff_eq.mp hkey⟩
      rw [hnone as fun x hx => List.mem_append_left bs hx,
        hnone bs fun x hx => List.mem_append_right as hx]
  · intro h c
    rw [tiesWith_eq, tiesWith_eq, h c.key]

end

instance : IsTrans RuleEffect fun a b => effectRank a ≤ effectRank b where
  trans _ _ _ := le_trans

instance : Std.Total fun a b : RuleEffect => effectRank a ≤ effectRank b where
  total a b := le_total (effectRank a) (effectRank b)

theorem effectRank_injective {a b : RuleEffect} (h : effectRank a = effectRank b) : a = b := by
  cases a <;> cases b <;> first | rfl | cases h

theorem projection_of_agree (h : Agree o o') :
    projection o' = { projection o with approval := (projection o').approval } := by
  have heffects : (o.effects.eraseDups.insertionSort fun a b => effectRank a ≤ effectRank b) =
      o'.effects.eraseDups.insertionSort fun a b => effectRank a ≤ effectRank b := by
    refine insertionSort_eq_of_perm ?_ fun a _ b _ hab hba =>
      effectRank_injective (le_antisymm hab hba)
    exact eraseDups_perm_of_mem_iff h.effects
  have hids : o.matchedRuleIds.insertionSort (· ≤ ·) = o'.matchedRuleIds.insertionSort (· ≤ ·) :=
    insertionSort_eq_of_perm h.matchedRuleIds fun _ _ _ _ => le_antisymm
  simp only [projection, h.final, heffects, hids]

theorem fingerprint_eq_iff (h : Agree o o') :
    (∀ digest, computeRuleOutcomeFingerprint digest o = computeRuleOutcomeFingerprint digest o') ↔
      (projection o).approval = (projection o').approval := by
  constructor
  · intro hall
    by_contra hne
    -- A digest that tells the two projections apart.
    classical
    have hdigest := hall fun p => if p = projection o then "a" else "b"
    have hother : projection o' ≠ projection o := fun heq => hne (by rw [heq])
    simp only [computeRuleOutcomeFingerprint, if_neg hother] at hdigest
    exact absurd hdigest (by decide)
  · intro heq digest
    rw [computeRuleOutcomeFingerprint, computeRuleOutcomeFingerprint, projection_of_agree h, ← heq]

theorem approval_eq_iff (h : chainConfigsEqual o.approvalConfig o'.approvalConfig = true) :
    (projection o).approval = (projection o').approval ↔
      ∀ a b, o.approvalConfig = some a → o'.approvalConfig = some b → WrittenAlike a b := by
  unfold projection
  cases ha : o.approvalConfig with
  | none =>
    cases hb : o'.approvalConfig with
    | none => simp
    | some b =>
      rw [ha, hb] at h
      cases h
  | some a =>
    cases hb : o'.approvalConfig with
    | none =>
      rw [ha, hb] at h
      cases h
    | some b =>
      rw [ha, hb, chainConfigsEqual_iff] at h
      simp only [Option.map_some, Option.some.injEq, Prod.mk.injEq, h.1, and_true,
        canonicalApproverSort_eq_iff]
      constructor
      · rintro halike _ _ rfl rfl
        exact halike
      · intro halike
        exact halike a b rfl rfl

/-! ## The law and the condition -/

omit [LinearOrder ι] in
theorem SameChain.symm (h : SameChain a b) : SameChain b a :=
  ⟨h.1.symm, h.2.symm⟩

/-- The comparison is an equivalence that forgets the order of the approvers, and outcomes that agree
and have equal configurations have one fingerprint, exactly when the approvers of a chain that both
ask for are written alike. -/
theorem comparisonLaw_iff (o o' : ResolveOutcome ι κ) :
    ComparisonLaw o o' ↔ ChainWrittenAlike o o' := by
  constructor
  · intro hlaw hagree a b ha hb hsame
    have hequal : chainConfigsEqual o.approvalConfig o'.approvalConfig = true := by
      rw [ha, hb, chainConfigsEqual_iff]
      exact hsame
    have hprint := (fingerprint_eq_iff hagree).mp (hlaw.fingerprint hagree hequal)
    exact (approval_eq_iff hequal).mp hprint a b ha hb
  · intro hcond
    refine ⟨?_, ?_, ?_, ?_, ?_, fun _ => ⟨rfl, rfl⟩, ?_⟩
    · intro a
      cases a with
      | none => rfl
      | some a => exact chainConfigsEqual_iff.mpr ⟨rfl, List.Perm.refl _⟩
    · intro a b h
      cases a <;> cases b
      · rfl
      · cases h
      · cases h
      · exact chainConfigsEqual_iff.mpr (chainConfigsEqual_iff.mp h).symm
    · intro a b c hab hbc
      cases b with
      | none =>
        cases a with
        | none => exact hbc
        | some a => cases hab
      | some b =>
        cases a with
        | none => cases hab
        | some a =>
          cases c with
          | none => cases hbc
          | some c =>
            have h := chainConfigsEqual_iff.mp hab
            have h' := chainConfigsEqual_iff.mp hbc
            exact chainConfigsEqual_iff.mpr ⟨h.1.trans h'.1, h.2.trans h'.2⟩
    · intro a l b hperm
      cases b with
      | none => rfl
      | some b =>
        have hkeys : (l.map Approver.key).Perm (a.approvers.map Approver.key) :=
          (hperm.map _).symm
        rw [Bool.eq_iff_iff, chainConfigsEqual_iff, chainConfigsEqual_iff]
        exact and_congr_right fun _ => ⟨hkeys.symm.trans, hkeys.trans⟩
    · intro a b hdiffer
      rw [Bool.eq_false_iff, Ne, chainConfigsEqual_iff]
      exact hdiffer
    · intro hagree hequal
      refine (fingerprint_eq_iff hagree).mpr ((approval_eq_iff hequal).mpr ?_)
      intro a b ha hb
      rw [ha, hb, chainConfigsEqual_iff] at hequal
      exact hcond hagree a b ha hb hequal

/-! ## An approver with a label -/

/-- One person, stored with a label beside the type and the id. -/
def labelled (label : String) : ResolveOutcome Nat String where
  effects := [.requireApproval]
  matchedRuleIds := [4]
  approvalConfig := some { requiredApprovers := some [⟨.person, 7, label⟩], threshold := some .all }
  final := .requireApproval

/-- The label is hashed although it is not compared. -/
theorem labels_change_fingerprint :
    ¬∀ o o' : ResolveOutcome Nat String, ComparisonLaw o o' := by
  intro hlaw
  have hagree : Agree (labelled "Ann") (labelled "Anna") := ⟨rfl, List.Perm.refl _, fun _ => Iff.rfl⟩
  have hprint := (hlaw (labelled "Ann") (labelled "Anna")).fingerprint hagree (by decide)
    fun p => ((p.approval.map Prod.fst).getD []).foldl (fun text x => text ++ x.layout) ""
  revert hprint
  decide

end Prequest.Booking.Objects
