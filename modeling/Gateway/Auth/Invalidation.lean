import Mathlib.Data.List.AList
import Gateway.Dispatch.Client

/-! # The cache of auth snapshots and its invalidation -/

namespace Gateway.Auth

open Lib Dispatch List
open Function (Injective update)

section
variable {α : Type*} {β : α → Type*} [DecidableEq α] (entries : AList β) (a : α)

theorem length_keys_erase_le : (entries.erase a).keys.length ≤ entries.keys.length := by
  rw [AList.keys_erase]
  exact length_erase_le

theorem length_keys_insert_le (b : β a) :
    (entries.insert a b).keys.length ≤ entries.keys.length + 1 := by
  rw [AList.keys_insert]
  exact Nat.succ_le_succ length_erase_le

end

structure AuthSnapshot where
  userId : Int := 0
  groupId : Int := 0
  version : Int := 0
  deriving DecidableEq

structure SpeculativeCache where
  entries : AList fun _ : Bytes => AuthSnapshot
  maxEntries : Nat
  size_le : entries.keys.length ≤ max 1 maxEntries

variable {cache : SpeculativeCache} {keyHash : Bytes} {found : AuthSnapshot}

namespace SpeculativeCache

variable {other : Bytes} {snapshot : AuthSnapshot}

def create (maxEntries : Nat) : SpeculativeCache := ⟨∅, maxEntries, by simp⟩

def lookup (cache : SpeculativeCache) (keyHash : Bytes) : Option AuthSnapshot :=
  cache.entries.lookup keyHash

def insert (cache : SpeculativeCache) (keyHash : Bytes) (snapshot : AuthSnapshot) :
    SpeculativeCache :=
  if h : cache.maxEntries ≤ cache.entries.keys.length then
    { cache with
      entries := AList.insert keyHash snapshot ∅
      size_le := by simp }
  else
    { cache with
      entries := cache.entries.insert keyHash snapshot
      size_le := by
        have hsize := length_keys_insert_le cache.entries keyHash snapshot
        omega }

def evict (cache : SpeculativeCache) (keyHash : Bytes) : SpeculativeCache where
  entries := cache.entries.erase keyHash
  maxEntries := cache.maxEntries
  size_le := (length_keys_erase_le cache.entries keyHash).trans cache.size_le

def evictAll (cache : SpeculativeCache) : SpeculativeCache := create cache.maxEntries

@[simp] theorem lookup_create (maxEntries : Nat) (keyHash : Bytes) :
    (create maxEntries).lookup keyHash = none := rfl

@[simp] theorem lookup_evictAll (cache : SpeculativeCache) (keyHash : Bytes) :
    cache.evictAll.lookup keyHash = none := rfl

@[simp] theorem lookup_insert (cache : SpeculativeCache) (keyHash : Bytes)
    (snapshot : AuthSnapshot) : (cache.insert keyHash snapshot).lookup keyHash = some snapshot := by
  unfold insert
  split <;> exact AList.lookup_insert _

theorem lookup_insert_other (hne : other ≠ keyHash) : (cache.insert keyHash snapshot).lookup other =
      if cache.maxEntries ≤ cache.entries.keys.length then none else cache.lookup other := by
  unfold insert
  split <;> rw [lookup, AList.lookup_insert_ne hne]
  · rfl
  · rfl

theorem lookup_evict_eq (other : Bytes) : (cache.evict keyHash).lookup other =
    if other = keyHash then none else cache.lookup other := by
  split
  · next heq => exact heq ▸ AList.lookup_erase _ _
  · next hne => exact AList.lookup_erase_ne hne

theorem lookup_insert_ne (hne : other ≠ keyHash)
    (h : (cache.insert keyHash snapshot).lookup other = some found) :
    cache.lookup other = some found := by
  rw [lookup_insert_other hne] at h
  split at h
  · cases h
  · exact h

theorem lookup_evict (h : (cache.evict keyHash).lookup other = some found) :
    cache.lookup other = some found := by
  rw [lookup_evict_eq] at h
  split at h
  · cases h
  · exact h

end SpeculativeCache

structure InvalidationVersionTracker where
  initialized : Bool := false
  lastVersion : Bytes := []
  deriving DecidableEq

def InvalidationVersionTracker.observe (tracker : InvalidationVersionTracker) (found : Bool)
    (version : Bytes) : Bool × InvalidationVersionTracker :=
  if !found then (tracker.initialized, { initialized := false, lastVersion := [] })
  else if !tracker.initialized then (false, { initialized := true, lastVersion := version })
  else if tracker.lastVersion = version then (false, tracker)
  else (true, { tracker with lastVersion := version })

structure InvalidationSubscriber where
  entered : Bool := false
  tracker : InvalidationVersionTracker := {}
  deriving DecidableEq

def InvalidationSubscriber.poll (sub : InvalidationSubscriber) (cache : SpeculativeCache)
    (found : Bool) (value : Bytes) : InvalidationSubscriber × SpeculativeCache :=
  let (flush, tracker) := sub.tracker.observe found value
  ({ entered := true, tracker }, if sub.entered && flush then cache.evictAll else cache)

structure Core where
  cache : SpeculativeCache
  subscriber : InvalidationSubscriber := {}
  version : Nat
  insertedAt : Bytes → Nat := fun _ => 0

inductive Event where
  | bump (more : Nat)
  | insert (keyHash : Bytes) (snapshot : AuthSnapshot)
  | evict (keyHash : Bytes)
  | poll (found : Bool)
  deriving DecidableEq

namespace Core

section
variable (render : Nat → Bytes)

def step (core : Core) : Event → Core
  | .bump more => { core with version := core.version + more + 1 }
  | .insert keyHash snapshot =>
    { core with
      cache := core.cache.insert keyHash snapshot
      insertedAt := update core.insertedAt keyHash core.version }
  | .evict keyHash => { core with cache := core.cache.evict keyHash }
  | .poll found =>
    let value := if found then render core.version else []
    let (subscriber, cache) := core.subscriber.poll core.cache found value
    { core with subscriber, cache }

def run (core : Core) (history : List Event) : Core := history.foldl (step render) core

end

def start (maxEntries version : Nat) : Core := { cache := .create maxEntries, version }

def Fresh (core : Core) : Prop :=
  ∀ keyHash snapshot, core.cache.lookup keyHash = some snapshot →
    core.version ≤ core.insertedAt keyHash

end Core

def lastPoll (history : List Event) : Option Bool :=
  history.foldl
    (fun last event => match event with
      | .poll found => some found
      | _ => last) none

variable {render : Nat → Bytes} {core : Core} {history : List Event}

theorem lastPoll_of_no_outage (h : Event.poll false ∉ history) :
    lastPoll (.poll true :: history) = some true := by
  induction history using reverseRecOn with
  | nil => rfl
  | append_singleton history event ih =>
    rw [mem_append, not_or] at h
    have hl := ih h.1
    rw [← cons_append, lastPoll, foldl_concat]
    cases event with
    | bump more => exact hl
    | insert keyHash snapshot => exact hl
    | evict keyHash => exact hl
    | poll found =>
      cases found with
      | false => exact absurd (mem_singleton_self _) h.2
      | true => rfl

variable {maxEntries : Nat}

namespace Core

theorem run_append_singleton (core : Core) (history : List Event) (event : Event) :
    core.run render (history ++ [event]) = (core.run render history).step render event :=
  foldl_concat ..

abbrev HasBaseline (core : Core) : Prop := core.subscriber.tracker.initialized = true

theorem Fresh.of_flushed (h : core.cache = cache.evictAll) : core.Fresh := by
  intro keyHash snapshot hf
  rw [h, SpeculativeCache.lookup_evictAll] at hf
  exact absurd hf (by simp)

theorem fresh_start (maxEntries version : Nat) : (start maxEntries version).Fresh := by
  intro keyHash snapshot hf
  exact absurd hf (by simp [start])

theorem Fresh.insert (h : core.Fresh) (keyHash : Bytes) (snapshot : AuthSnapshot) :
    (core.step render (.insert keyHash snapshot)).Fresh := by
  intro other found hf
  by_cases heq : other = keyHash
  · subst heq; exact (Function.update_self other core.version core.insertedAt).ge
  · calc core.version
      _ ≤ core.insertedAt other := h other found (SpeculativeCache.lookup_insert_ne heq hf)
      _ = update core.insertedAt keyHash core.version other := (Function.update_of_ne heq ..).symm

theorem Fresh.evict (h : core.Fresh) (keyHash : Bytes) :
    (core.step render (.evict keyHash)).Fresh := by
  intro other found hf
  exact h other found (SpeculativeCache.lookup_evict hf)

theorem fresh_poll_of_not_baseline (h : ¬ core.HasBaseline) :
    (core.step render (.poll true)).Fresh ↔ core.Fresh := by
  rw [Bool.not_eq_true] at h
  have hc : (core.step render (.poll true)).cache = core.cache := by
    simp [step, InvalidationSubscriber.poll, InvalidationVersionTracker.observe, h]
  exact forall₂_congr fun keyHash snapshot => by rw [hc]; rfl

theorem tracker_poll_true (core : Core) : (core.step render (.poll true)).subscriber =
      { entered := true
        tracker := { initialized := true, lastVersion := render core.version } } := by
  obtain ⟨cache, ⟨entered, initialized, lastVersion⟩, version, insertedAt⟩ := core
  simp only [step, InvalidationSubscriber.poll, InvalidationVersionTracker.observe]
  cases initialized with
  | false => simp
  | true =>
    by_cases hs : lastVersion = render version
    · simp [hs]
    · simp [hs]

theorem tracker_poll_false (core : Core) :
    (core.step render (.poll false)).subscriber = { entered := true, tracker := {} } := by
  simp [step, InvalidationSubscriber.poll, InvalidationVersionTracker.observe]

structure Synced (render : Nat → Bytes) (core : Core) : Prop where
  entered : core.HasBaseline → core.subscriber.entered = true
  behind : core.HasBaseline →
    ∃ version ≤ core.version, core.subscriber.tracker.lastVersion = render version
  fresh : core.HasBaseline →
    core.subscriber.tracker.lastVersion = render core.version → core.Fresh

namespace Synced

theorem start (maxEntries version : Nat) : Synced render (start maxEntries version) := by
  have hn : ¬ (Core.start maxEntries version).HasBaseline := by simp [Core.start]
  refine ⟨?_, ?_, ?_⟩
  all_goals
    intro h
    exact absurd h hn

theorem bump (hr : Injective render) (h : Synced render core) (more : Nat) :
    Synced render (core.step render (.bump more)) := by
  refine ⟨h.entered, ?_, ?_⟩
  · intro hba
    obtain ⟨version, hle, heq⟩ := h.behind hba
    exact ⟨version, by simp only [step]; omega, heq⟩
  · intro hba hs
    obtain ⟨version, hle, heq⟩ := h.behind hba
    have hv : version = core.version + more + 1 := hr (heq.symm.trans hs)
    omega

theorem insert (h : Synced render core) (keyHash : Bytes) (snapshot : AuthSnapshot) :
    Synced render (core.step render (.insert keyHash snapshot)) := by
  refine ⟨h.entered, h.behind, ?_⟩
  intro hba hs
  exact (h.fresh hba hs).insert keyHash snapshot

theorem evict (h : Synced render core) (keyHash : Bytes) :
    Synced render (core.step render (.evict keyHash)) := by
  refine ⟨h.entered, h.behind, ?_⟩
  intro hba hs
  exact (h.fresh hba hs).evict keyHash

theorem fresh_poll (h : Synced render core) (hba : core.HasBaseline) :
    (core.step render (.poll true)).Fresh := by
  have hi : core.subscriber.tracker.initialized := hba
  by_cases hs : core.subscriber.tracker.lastVersion = render core.version
  · intro keyHash snapshot hf
    refine h.fresh hba hs keyHash snapshot ?_
    simpa [step, InvalidationSubscriber.poll, InvalidationVersionTracker.observe, hi, hs]
      using hf
  · refine Fresh.of_flushed (?_ : _ = core.cache.evictAll)
    simp [step, InvalidationSubscriber.poll, InvalidationVersionTracker.observe, hi, hs,
      h.entered hba]

theorem poll_false (core : Core) : Synced render (core.step render (.poll false)) := by
  have hn : ¬ (core.step render (.poll false)).HasBaseline := by
    simp [HasBaseline, tracker_poll_false]
  refine ⟨?_, ?_, ?_⟩
  all_goals
    intro h
    exact absurd h hn

theorem poll_true (h : (core.step render (.poll true)).Fresh) :
    Synced render (core.step render (.poll true)) := by
  refine ⟨?_, ?_, ?_⟩
  · intro _; rw [tracker_poll_true]
  · intro _; rw [tracker_poll_true]; exact ⟨core.version, le_rfl, rfl⟩
  · intro _ _; exact h

end Synced

theorem hasBaseline_run (maxEntries version : Nat) (history : List Event) :
    ((start maxEntries version).run render history).HasBaseline ↔ lastPoll history = some true := by
  induction history using reverseRecOn with
  | nil => simp [run, start, lastPoll]
  | append_singleton history event ih =>
    rw [run_append_singleton, lastPoll, foldl_concat]
    cases event with
    | bump more => exact ih
    | insert keyHash snapshot => exact ih
    | evict keyHash => exact ih
    | poll found =>
      cases found with
      | false => simp [HasBaseline, tracker_poll_false]
      | true => simp [HasBaseline, tracker_poll_true]

def FreshAfterPolls (render : Nat → Bytes) (core : Core) (history : List Event) : Prop :=
  ∀ before, before ++ [Event.poll true] <+: history →
    (core.run render (before ++ [.poll true])).Fresh

def FreshAtBaselines (render : Nat → Bytes) (core : Core) (history : List Event) : Prop :=
  ∀ before, before ++ [Event.poll true] <+: history → lastPoll before ≠ some true →
    (core.run render before).Fresh

theorem synced_run (hr : Injective render) {version : Nat}
    (h : FreshAtBaselines render (start maxEntries version) history) :
    Synced render ((start maxEntries version).run render history) := by
  induction history using reverseRecOn with
  | nil => exact Synced.start maxEntries version
  | append_singleton history event ih =>
    have hs : Synced render ((start maxEntries version).run render history) := by
      apply ih
      intro before hbefore hl; exact h before (hbefore.trans (prefix_append ..)) hl
    rw [run_append_singleton]
    cases event with
    | bump more => exact hs.bump hr more
    | insert keyHash snapshot => exact hs.insert keyHash snapshot
    | evict keyHash => exact hs.evict keyHash
    | poll found =>
      cases found with
      | false => exact Synced.poll_false _
      | true =>
        apply Synced.poll_true
        by_cases hba : ((start maxEntries version).run render history).HasBaseline
        · exact hs.fresh_poll hba
        · rw [fresh_poll_of_not_baseline hba]
          refine h history (prefix_refl _) ?_
          rwa [hasBaseline_run] at hba

theorem freshAtBaselines_of_no_outage {version : Nat} (h : Event.poll false ∉ history) :
    FreshAtBaselines render (start maxEntries version) (.poll true :: history) := by
  intro before hbefore hl
  cases before with
  | nil => exact fresh_start maxEntries version
  | cons first rest =>
    obtain ⟨rfl, hr⟩ := cons_prefix_cons.1 hbefore
    have hn : Event.poll false ∉ rest := by intro hm; exact h (hr.subset (mem_append_left _ hm))
    exact absurd (lastPoll_of_no_outage hn) hl

theorem no_stale_snapshot_iff (hrender : Injective render) (maxEntries version : Nat)
    (history : List Event) : FreshAfterPolls render (start maxEntries version) history ↔
      FreshAtBaselines render (start maxEntries version) history := by
  constructor
  · intro h before hbefore hlast
    have hafter := h before hbefore
    rw [run_append_singleton, fresh_poll_of_not_baseline] at hafter
    · exact hafter
    · rwa [hasBaseline_run]
  · intro h before hbefore
    have hsynced : Synced render ((start maxEntries version).run render before) := by
      apply synced_run hrender
      intro earlier hearlier hlast
      exact h earlier (hearlier.trans ((prefix_append ..).trans hbefore)) hlast
    rw [run_append_singleton]
    by_cases hbase : ((start maxEntries version).run render before).HasBaseline
    · exact hsynced.fresh_poll hbase
    · rw [fresh_poll_of_not_baseline hbase]
      refine h before hbefore ?_
      rwa [hasBaseline_run] at hbase

theorem bump_between_polls_flushes : FreshAtBaselines decimal (start 10000 0)
        [.poll true, .insert (ascii "key") { version := 1 }, .bump 0, .poll true] ∧
      FreshAfterPolls decimal (start 10000 0)
        [.poll true, .insert (ascii "key") { version := 1 }, .bump 0, .poll true] := by
  have hbaselines : FreshAtBaselines decimal (start 10000 0)
      [.poll true, .insert (ascii "key") { version := 1 }, .bump 0, .poll true] :=
    freshAtBaselines_of_no_outage (by simp)
  exact ⟨hbaselines, (no_stale_snapshot_iff decimal_injective 10000 0 _).2 hbaselines⟩

theorem outage_keeps_snapshot : ¬ ∀ history, FreshAfterPolls decimal (start 10000 0) history := by
  intro h
  have hfresh := h _ [.poll true, .poll false, .insert (ascii "key") { version := 1 }, .bump 0]
    (prefix_refl _)
  have hstale : 1 ≤ 0 := hfresh (ascii "key") { version := 1 } (by decide)
  exact absurd hstale (by decide)

end Core

end Gateway.Auth
