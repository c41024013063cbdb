import Mathlib.Data.List.Nodup
import Mathlib.Data.List.Perm.Basic

/-!
# The elements of a list, each at its first place

A `Set` that is filled from a list keeps its elements in the order in which they are
first seen, as `List.eraseDups` does. Of two elements the one leads that is seen first.

* `nodup_eraseDups`, `eraseDups_perm`: the elements once each; a permutation has the same ones.
* `eraseDups_eq_iff`: two lists keep the same elements in one order when the same elements lead.
* `flatten_eraseDups_eq`: it does not matter where they stand.
-/

namespace Prequest.Lib

variable {α : Type*}

section

variable [BEq α] [LawfulBEq α]

theorem nodup_eraseDups (l : List α) : l.eraseDups.Nodup := by
  induction hlength : l.length using Nat.strongRecOn generalizing l with
  | _ n ih =>
    cases l with
    | nil => exact List.nodup_nil
    | cons a l =>
      have hshorter : (l.filter fun b => !b == a).length < n :=
        hlength ▸ Nat.lt_succ_of_le (List.length_filter_le _ l)
      rw [List.eraseDups_cons, List.nodup_cons]
      refine ⟨fun hmem => ?_, ih _ hshorter _ rfl⟩
      have hother := (List.mem_filter.mp (List.mem_eraseDups.mp hmem)).2
      rw [BEq.rfl] at hother
      cases hother

theorem eraseDups_perm_of_mem_iff {l l' : List α} (h : ∀ a, a ∈ l ↔ a ∈ l') :
    l.eraseDups.Perm l'.eraseDups := by
  rw [List.perm_ext_iff_of_nodup (nodup_eraseDups l) (nodup_eraseDups l')]
  intro a
  rw [List.mem_eraseDups, List.mem_eraseDups]
  exact h a

theorem eraseDups_perm {l l' : List α} (h : l.Perm l') : l.eraseDups.Perm l'.eraseDups :=
  eraseDups_perm_of_mem_iff fun _ => h.mem_iff

theorem eraseDups_eq_self {l : List α} (h : l.Nodup) : l.eraseDups = l := by
  induction l with
  | nil => rfl
  | cons a l ih =>
    obtain ⟨ha, hl⟩ := List.nodup_cons.mp h
    have hfilter : (l.filter fun b => !b == a) = l := by
      refine List.filter_eq_self.mpr fun b hb => ?_
      have hne : b ≠ a := fun heq => ha (heq ▸ hb)
      rw [beq_eq_false_iff_ne.mpr hne]
      rfl
    rw [List.eraseDups_cons, hfilter, ih hl]

end

/-! ## Who is seen first -/

/-- `x` is in the list, and no `y` before it. -/
def Leads (x y : α) : List α → Prop
  | [] => False
  | a :: l => a = x ∨ a ≠ y ∧ Leads x y l

variable {x y : α} {l l' : List α}

theorem leads_cons {a : α} : Leads x y (a :: l) ↔ a = x ∨ a ≠ y ∧ Leads x y l := Iff.rfl

theorem Leads.asymm (h : Leads x y l) (hne : x ≠ y) : ¬Leads y x l := by
  induction l with
  | nil => exact h.elim
  | cons a l ih =>
    rintro (rfl | ⟨hax, hyx⟩)
    · rcases h with rfl | ⟨hay, _⟩
      · exact hne rfl
      · exact hay rfl
    · rcases h with rfl | ⟨_, hxy⟩
      · exact hax rfl
      · exact ih hxy hyx

theorem leads_or (hmem : x ∈ l ∨ y ∈ l) : Leads x y l ∨ Leads y x l := by
  classical
  induction l with
  | nil => rcases hmem with h | h <;> cases h
  | cons a l ih =>
    by_cases hx : a = x
    · exact .inl (.inl hx)
    · by_cases hy : a = y
      · exact .inr (.inl hy)
      · have hrest : x ∈ l ∨ y ∈ l := by
          rcases hmem with h | h
          · exact .inl (List.mem_of_ne_of_mem (Ne.symm hx) h)
          · exact .inr (List.mem_of_ne_of_mem (Ne.symm hy) h)
        rcases ih hrest with h | h
        · exact .inl (.inr ⟨hy, h⟩)
        · exact .inr (.inr ⟨hx, h⟩)

theorem leads_append : Leads x y (l ++ l') ↔ Leads x y l ∨ y ∉ l ∧ Leads x y l' := by
  induction l with
  | nil => simp [Leads]
  | cons a l ih =>
    rw [List.cons_append, leads_cons, leads_cons, ih, List.mem_cons, not_or]
    constructor
    · rintro (hx | ⟨hy, h | ⟨hmem, h⟩⟩)
      · exact .inl (.inl hx)
      · exact .inl (.inr ⟨hy, h⟩)
      · exact .inr ⟨⟨Ne.symm hy, hmem⟩, h⟩
    · rintro ((hx | ⟨hy, h⟩) | ⟨⟨hy, hmem⟩, h⟩)
      · exact .inl hx
      · exact .inr ⟨hy, .inl h⟩
      · exact .inr ⟨Ne.symm hy, .inr ⟨hmem, h⟩⟩

theorem leads_filter {p : α → Bool} (hx : p x = true) (hy : p y = true) :
    Leads x y (l.filter p) ↔ Leads x y l := by
  induction l with
  | nil => exact Iff.rfl
  | cons a l ih =>
    cases hp : p a with
    | true =>
      rw [List.filter_cons_of_pos hp, leads_cons, leads_cons, ih]
    | false =>
      have hax : a ≠ x := fun heq => by rw [heq, hx] at hp; cases hp
      have hay : a ≠ y := fun heq => by rw [heq, hy] at hp; cases hp
      rw [List.filter_cons_of_neg (by simp [hp]), ih, leads_cons, or_iff_right hax,
        and_iff_right hay]

section

variable [BEq α] [LawfulBEq α]

theorem leads_eraseDups (l : List α) : Leads x y l.eraseDups ↔ Leads x y l := by
  induction hlength : l.length using Nat.strongRecOn generalizing l with
  | _ n ih =>
    cases l with
    | nil => exact Iff.rfl
    | cons a l =>
      have hshorter : (l.filter fun b => !b == a).length < n :=
        hlength ▸ Nat.lt_succ_of_le (List.length_filter_le _ l)
      rw [List.eraseDups_cons, leads_cons, leads_cons]
      by_cases hx : a = x
      · exact iff_of_true (.inl hx) (.inl hx)
      · rw [or_iff_right hx, or_iff_right hx, ih _ hshorter _ rfl]
        refine and_congr_right fun hy => leads_filter ?_ ?_
        · simpa using Ne.symm hx
        · simpa using Ne.symm hy

theorem eraseDups_eq_iff : l.eraseDups = l'.eraseDups ↔
    (∀ a, a ∈ l ↔ a ∈ l') ∧ ∀ x y, x ≠ y → Leads x y l → Leads x y l' := by
  constructor
  · intro h
    refine ⟨fun a => ?_, fun x y _ hleads => ?_⟩
    · rw [← List.mem_eraseDups, h, List.mem_eraseDups]
    · rw [← leads_eraseDups, ← h, leads_eraseDups]
      exact hleads
  · rintro ⟨hmem, hleads⟩
    have hnodup : ∀ {k : List α}, k.Nodup → k.Pairwise fun a b => Leads a b k := by
      intro k hk
      induction k with
      | nil => exact List.Pairwise.nil
      | cons a k ih =>
        obtain ⟨ha, hrest⟩ := List.nodup_cons.mp hk
        refine List.pairwise_cons.mpr ⟨fun b _ => .inl rfl, ?_⟩
        refine (ih hrest).imp_of_mem fun {b c} _ hc hbc => ?_
        exact .inr ⟨fun heq => ha (heq ▸ hc), hbc⟩
    have hl := hnodup (nodup_eraseDups l)
    have hl' := hnodup (nodup_eraseDups l')
    refine @List.Perm.eq_of_pairwise _ (fun a b => a = b ∨ Leads a b l'.eraseDups) _ _ ?_ ?_
      (hl'.imp fun h => .inr h) (eraseDups_perm_of_mem_iff hmem)
    · rintro a b _ _ (rfl | hab) hba
      · rfl
      · rcases hba with rfl | hba
        · rfl
        · by_contra hne
          exact hab.asymm hne hba
    · refine hl.imp fun {a b} hab => ?_
      by_cases heq : a = b
      · exact .inl heq
      · right
        rw [leads_eraseDups] at hab ⊢
        exact hleads a b heq hab

theorem eraseDups_append_eraseDups (l l' : List α) :
    (l.eraseDups ++ l'.eraseDups).eraseDups = (l ++ l').eraseDups := by
  refine eraseDups_eq_iff.mpr ⟨fun a => ?_, fun x y _ hleads => ?_⟩
  · simp only [List.mem_append, List.mem_eraseDups]
  · rwa [leads_append, leads_eraseDups, leads_eraseDups, List.mem_eraseDups, ← leads_append] at hleads

end

/-! ## Lists one after the other -/

/-- No element leads another one in one of the lists and is led by it in another. -/
def Agreeing (ls : List (List α)) : Prop :=
  ∀ l ∈ ls, ∀ l' ∈ ls, ∀ x y, x ≠ y → Leads x y l → ¬Leads y x l'

theorem leads_flatten_iff {ls : List (List α)} (h : Agreeing ls) (hne : x ≠ y) :
    Leads x y ls.flatten ↔ ∃ l ∈ ls, Leads x y l := by
  induction ls with
  | nil => simp [Leads]
  | cons k ls ih =>
    have hrest : Agreeing ls := fun l hl l' hl' =>
      h l (List.mem_cons_of_mem k hl) l' (List.mem_cons_of_mem k hl')
    rw [List.flatten_cons, leads_append, ih hrest, List.exists_mem_cons_iff]
    constructor
    · rintro (hk | ⟨_, hlater⟩)
      · exact .inl hk
      · exact .inr hlater
    · rintro (hk | ⟨l, hl, hleads⟩)
      · exact .inl hk
      · by_cases hmem : x ∈ k ∨ y ∈ k
        · rcases leads_or hmem with hk | hk
          · exact .inl hk
          · exact absurd hk (h l (List.mem_cons_of_mem k hl) k List.mem_cons_self x y hne hleads)
        · exact .inr ⟨fun hy => hmem (.inr hy), l, hl, hleads⟩

section

variable [BEq α] [LawfulBEq α]

theorem flatten_eraseDups_eq {ls ls' : List (List α)} (h : Agreeing ls)
    (hmem : ∀ l, l ∈ ls ↔ l ∈ ls') : ls.flatten.eraseDups = ls'.flatten.eraseDups := by
  have h' : Agreeing ls' := fun l hl l' hl' => h l ((hmem l).mpr hl) l' ((hmem l').mpr hl')
  refine eraseDups_eq_iff.mpr ⟨fun a => ?_, fun x y hne hleads => ?_⟩
  · simp only [List.mem_flatten, hmem]
  · rw [leads_flatten_iff h hne] at hleads
    rw [leads_flatten_iff h' hne]
    obtain ⟨l, hl, hleads⟩ := hleads
    exact ⟨l, (hmem l).mp hl, hleads⟩

end

end Prequest.Lib
