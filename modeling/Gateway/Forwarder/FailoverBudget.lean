import Mathlib.Algebra.BigOperators.Group.Finset.Basic
import Mathlib.Algebra.Order.BigOperators.Group.Finset
import Gateway.Forwarder.Failover

/-! # The budget of a failover -/

namespace Gateway.Forwarder

open List
open Function (update update_of_ne update_self)

structure AttemptFailure where
  accountId : Int
  statusCode : Int
  deriving DecidableEq

structure HandledFailure where
  accountId : Int
  action : FailoverAction
  deriving DecidableEq

variable {run : List HandledFailure × FailoverController}

namespace FailoverController

variable (c : FailoverController)

def record (run : List HandledFailure × FailoverController) (failure : AttemptFailure) :
    List HandledFailure × FailoverController :=
  let (action, c) := run.2.handleError failure.accountId failure.statusCode
  (run.1 ++ [⟨failure.accountId, action⟩], c)

def handleErrors (failures : List AttemptFailure) :
    List HandledFailure × FailoverController :=
  failures.foldl record ([], c)

theorem handleError_cases (accountId statusCode : Int) :
    (c.sameAccountRetries accountId < c.maxSameRetries ∧
      c.handleError accountId statusCode = (.continue, { c with
        sameAccountRetries := update c.sameAccountRetries accountId
          (c.sameAccountRetries accountId + 1) })) ∨
    c.handleError accountId statusCode = c.switch accountId ∨
    (c.maxSameRetries ≤ c.sameAccountRetries accountId ∧
      c.handleError accountId statusCode = switch { c with
        sameAccountRetries := update c.sameAccountRetries accountId
          (c.sameAccountRetries accountId + 1) } accountId) := by
  unfold handleError
  split
  · exact .inr (.inl rfl)
  · dsimp only
    split
    · next hr => exact .inl ⟨hr, rfl⟩
    · next hr => exact .inr (.inr ⟨by omega, rfl⟩)

theorem switch_cases (accountId : Int) :
    (c.maxSwitches ≤ c.switchCount ∧ (c.switch accountId).1 = .exhausted) ∨
      (c.switchCount < c.maxSwitches ∧ (c.switch accountId).1 = .switchAccount) := by
  by_cases h : c.switchCount + 1 > c.maxSwitches
  · exact .inl ⟨by omega, if_pos h⟩
  · exact .inr ⟨by omega, if_neg h⟩

def continues (history : List HandledFailure) (accountId : Int) : Nat :=
  history.count ⟨accountId, .continue⟩

def switches (history : List HandledFailure) : Nat :=
  history.countP (·.action = .switchAccount)

def GivenUp (history : List HandledFailure) (accountId : Int) : Prop :=
  ⟨accountId, .switchAccount⟩ ∈ history ∨ ⟨accountId, .exhausted⟩ ∈ history

structure Accounted (maxSwitches maxSameRetries : Nat)
    (run : List HandledFailure × FailoverController) : Prop where
  switchLimit : run.2.maxSwitches = maxSwitches
  retryLimit : run.2.maxSameRetries = maxSameRetries
  switches : switches run.1 = min run.2.switchCount maxSwitches
  continues : ∀ a, continues run.1 a = min (run.2.sameAccountRetries a) maxSameRetries
  failed : ∀ a, a ∈ run.2.failedAccounts ↔ GivenUp run.1 a
  exhausted : ∀ h ∈ run.1, h.action = .exhausted → maxSwitches < run.2.switchCount
  ordered : run.1.Pairwise fun h h' => h.action = .exhausted → h'.action ≠ .switchAccount

namespace Accounted

variable {maxSwitches maxSameRetries : Nat} {history : List HandledFailure}
  {c : FailoverController} {accountId : Int}

section

variable (h : Accounted maxSwitches maxSameRetries (history, c))

include h

theorem continued (hr : c.sameAccountRetries accountId < c.maxSameRetries) :
    Accounted maxSwitches maxSameRetries (history ++ [⟨accountId, .continue⟩], { c with
      sameAccountRetries := update c.sameAccountRetries accountId
        (c.sameAccountRetries accountId + 1) }) := { h with
  switches := by
    have := h.switches
    simpa [FailoverController.switches] using this
  continues := by
    intro a
    have hbefore := h.continues a
    have hm : c.maxSameRetries = maxSameRetries := h.retryLimit
    unfold FailoverController.continues at hbefore ⊢
    by_cases ha : a = accountId
    · subst ha
      simp only [count_append, count_singleton_self, update_self]
      simp only at hbefore
      omega
    · have hne : (⟨accountId, .continue⟩ : HandledFailure) ≠ ⟨a, .continue⟩ := by
        intro heq; exact ha (HandledFailure.mk.inj heq).1.symm
      simpa [count_append, count_singleton, hne, update_of_ne ha] using hbefore
  failed := by
    intro a
    have := h.failed a
    simpa [GivenUp] using this
  exhausted := by
    intro x hx he
    rcases mem_append.1 hx with hx | hx
    · exact h.exhausted x hx he
    · obtain rfl := mem_singleton.1 hx; cases he
  ordered := by
    refine pairwise_append.2 ⟨h.ordered, pairwise_singleton _ _, ?_⟩
    intro x hx y hy he
    obtain rfl := mem_singleton.1 hy
    simp }

theorem retried (hr : c.maxSameRetries ≤ c.sameAccountRetries accountId) :
    Accounted maxSwitches maxSameRetries (history, { c with
      sameAccountRetries := update c.sameAccountRetries accountId
        (c.sameAccountRetries accountId + 1) }) := { h with
  continues := by
    intro a
    have hbefore := h.continues a
    have hm : c.maxSameRetries = maxSameRetries := h.retryLimit
    by_cases ha : a = accountId
    · subst ha
      simp only [update_self]
      simp only at hbefore
      omega
    · simpa [update_of_ne ha] using hbefore }

theorem switched (accountId : Int) : Accounted maxSwitches maxSameRetries
      (history ++ [⟨accountId, (c.switch accountId).1⟩], (c.switch accountId).2) := by
  obtain ⟨hs, hr, hsw, hcon, hf, he, ho⟩ := h
  dsimp only at hs hr hsw hcon hf he ho
  have hc := c.switch_cases accountId
  rw [hs] at hc
  have hst : (c.switch accountId).2 =
      { c with
        failedAccounts := insert accountId c.failedAccounts
        switchCount := c.switchCount + 1 } := rfl
  rw [hst]
  generalize (c.switch accountId).1 = action at hc
  refine ⟨hs, hr, ?_, ?_, ?_, ?_, ?_⟩
  · change FailoverController.switches (history ++ [⟨accountId, action⟩]) =
      min (c.switchCount + 1) maxSwitches
    unfold FailoverController.switches at hsw ⊢
    rw [countP_append, hsw, countP_singleton]
    obtain ⟨hco, rfl⟩ | ⟨hco, rfl⟩ := hc
    · rw [if_neg (by simp)]; omega
    · rw [if_pos (by simp)]; omega
  · intro a
    have hne : (⟨accountId, action⟩ : HandledFailure) ≠ ⟨a, .continue⟩ := by
      obtain ⟨-, rfl⟩ | ⟨-, rfl⟩ := hc <;> simp
    have hbefore := hcon a
    unfold FailoverController.continues at hbefore ⊢
    simpa [count_append, count_singleton, hne] using hbefore
  · intro a
    change a ∈ insert accountId c.failedAccounts ↔ GivenUp (history ++ [⟨accountId, action⟩]) a
    rw [Finset.mem_insert, hf]
    obtain ⟨-, rfl⟩ | ⟨-, rfl⟩ := hc <;> simp [GivenUp] <;> tauto
  · intro x hx ha
    change maxSwitches < c.switchCount + 1
    rcases mem_append.1 hx with hx | hx
    · exact Nat.lt_succ_of_lt (he x hx ha)
    · obtain rfl := mem_singleton.1 hx
      obtain ⟨hco, -⟩ | ⟨-, rfl⟩ := hc
      · omega
      · cases ha
  · refine pairwise_append.2 ⟨ho, pairwise_singleton _ _, ?_⟩
    intro x hx y hy ha hswi
    obtain rfl := mem_singleton.1 hy
    have hov := he x hx ha
    obtain ⟨-, rfl⟩ | ⟨hco, -⟩ := hc
    · cases hswi
    · omega

end

theorem record (h : Accounted maxSwitches maxSameRetries run) (failure : AttemptFailure) :
    Accounted maxSwitches maxSameRetries (record run failure) := by
  obtain ⟨history, c⟩ := run
  unfold FailoverController.record
  obtain ⟨hr, heq⟩ | heq | ⟨hr, heq⟩ := c.handleError_cases failure.accountId failure.statusCode
  · rw [heq]; exact h.continued hr
  · rw [heq]; exact h.switched _
  · rw [heq]; exact (h.retried hr).switched _

theorem foldl (h : Accounted maxSwitches maxSameRetries run) (failures : List AttemptFailure) :
    Accounted maxSwitches maxSameRetries (failures.foldl FailoverController.record run) := by
  induction failures generalizing run with
  | nil => exact h
  | cons failure failures ih => exact ih (h.record failure)

end Accounted

theorem accounted_handleErrors (maxSwitches maxSameRetries : Nat) (failures : List AttemptFailure) :
    Accounted maxSwitches maxSameRetries
      (handleErrors { maxSwitches, maxSameRetries } failures) := by
  have hf : Accounted maxSwitches maxSameRetries
      ([], ({ maxSwitches, maxSameRetries } : FailoverController)) := by
    refine ⟨rfl, rfl, ?_, ?_, ?_, ?_, .nil⟩
    · simp [switches]
    · simp [continues]
    · simp [GivenUp]
    · simp
  exact hf.foldl failures

theorem counters_handleError (c : FailoverController) (accountId statusCode : Int) :
    (c.handleError accountId statusCode).2.switchCount ≤ c.switchCount + 1 ∧
      ∀ a, (c.handleError accountId statusCode).2.sameAccountRetries a ≤
        c.sameAccountRetries a + 1 := by
  have hupdate : ∀ a, update c.sameAccountRetries accountId
      (c.sameAccountRetries accountId + 1) a ≤ c.sameAccountRetries a + 1 := by
    intro a
    by_cases h : a = accountId
    · rw [h, update_self]
    · rw [update_of_ne h]; exact Nat.le_succ _
  obtain ⟨-, heq⟩ | heq | ⟨-, heq⟩ := c.handleError_cases accountId statusCode <;> rw [heq]
  · exact ⟨Nat.le_succ _, hupdate⟩
  · exact ⟨le_rfl, fun _ => Nat.le_succ _⟩
  · exact ⟨le_rfl, hupdate⟩

theorem counters_le_length (run : List HandledFailure × FailoverController)
    (failures : List AttemptFailure) :
    (failures.foldl record run).2.switchCount ≤ run.2.switchCount + failures.length ∧
      ∀ a, (failures.foldl record run).2.sameAccountRetries a ≤
        run.2.sameAccountRetries a + failures.length := by
  induction failures generalizing run with
  | nil => exact ⟨le_rfl, fun _ => le_rfl⟩
  | cons failure failures ih =>
    obtain ⟨hswitch, hretry⟩ := run.2.counters_handleError failure.accountId failure.statusCode
    obtain ⟨hswitches, hretries⟩ := ih (record run failure)
    rw [foldl_cons, length_cons, ← Nat.add_assoc, Nat.add_right_comm]
    refine ⟨hswitches.trans (Nat.add_le_add_right hswitch _), fun a => ?_⟩
    rw [← Nat.add_assoc, Nat.add_right_comm]
    exact (hretries a).trans (Nat.add_le_add_right (hretry a) _)

def triedAccounts (history : List HandledFailure) : Finset Int :=
  (history.map HandledFailure.accountId).toFinset

def continuedAccounts (history : List HandledFailure) : List Int :=
  (history.filter (·.action = .continue)).map HandledFailure.accountId

theorem count_continuedAccounts (history : List HandledFailure) (a : Int) :
    (continuedAccounts history).count a = continues history a := by
  unfold continuedAccounts continues
  induction history with
  | nil => rfl
  | cons h history ih =>
    obtain ⟨accountId, action⟩ := h
    cases action <;> simp [count_cons, ih]

theorem length_continuedAccounts_le {history : List HandledFailure} {maxSameRetries : Nat}
    (h : ∀ a, continues history a ≤ maxSameRetries) :
    (continuedAccounts history).length ≤ maxSameRetries * (triedAccounts history).card := by
  calc (continuedAccounts history).length
      = ∑ a ∈ (continuedAccounts history).toFinset, (continuedAccounts history).count a :=
        (sum_toFinset_count_eq_length _).symm
    _ ≤ ∑ _a ∈ (continuedAccounts history).toFinset, maxSameRetries := by
        apply Finset.sum_le_sum
        intro a _
        rw [count_continuedAccounts]; exact h a
    _ = (continuedAccounts history).toFinset.card * maxSameRetries := by exact Finset.sum_const _
    _ ≤ maxSameRetries * (triedAccounts history).card := by
        rw [Nat.mul_comm]
        apply Nat.mul_le_mul_left
        apply Finset.card_le_card
        intro a ha
        simp only [continuedAccounts, triedAccounts, mem_toFinset, mem_map, mem_filter] at ha ⊢
        obtain ⟨x, ⟨hx, -⟩, rfl⟩ := ha
        exact ⟨x, hx, rfl⟩

theorem countP_not_exhausted (history : List HandledFailure) :
    history.countP (·.action ≠ .exhausted) =
      switches history + (continuedAccounts history).length := by
  unfold switches continuedAccounts
  induction history with
  | nil => rfl
  | cons h history ih =>
    obtain ⟨accountId, action⟩ := h
    cases action <;> simp at ih ⊢ <;> omega

theorem failover_budget (maxSwitches maxSameRetries : Nat) (failures : List AttemptFailure) :
    let run := handleErrors { maxSwitches, maxSameRetries } failures
    switches run.1 ≤ maxSwitches ∧
      (∀ a, continues run.1 a ≤ maxSameRetries) ∧
      run.1.countP (·.action ≠ .exhausted) ≤
        maxSwitches + maxSameRetries * (triedAccounts run.1).card ∧
      (∀ a, a ∈ run.2.failedAccounts ↔ GivenUp run.1 a) ∧
      run.1.Pairwise fun h h' => h.action = .exhausted → h'.action ≠ .switchAccount := by
  intro run
  have h : Accounted maxSwitches maxSameRetries run := accounted_handleErrors _ _ failures
  have hswitches : switches run.1 ≤ maxSwitches := by rw [h.switches]; exact Nat.min_le_right _ _
  have hcontinues : ∀ a, continues run.1 a ≤ maxSameRetries := by
    intro a
    rw [h.continues]; exact Nat.min_le_right _ _
  refine ⟨hswitches, hcontinues, ?_, h.failed, h.ordered⟩
  rw [countP_not_exhausted]
  exact Nat.add_le_add hswitches (length_continuedAccounts_le hcontinues)

end FailoverController

end Gateway.Forwarder
