import Gateway.Forwarder.PolicyGate

/-! # The usage of a whole stream -/

namespace Gateway.Forwarder

open Lib Json Cutter List Option

def carriedUsages (rj : RapidJson) (events : List Bytes) : List Json :=
  events.filterMap (carriedUsage rj)

def rawInteger : Json → Option Int
  | .int n => some n
  | _ => none

def reported (object : Json) (keys : List Bytes) : List Int :=
  keys.filterMap fun key => (object.lookup key).bind rawInteger

def reportedDetail (usage : Json) (detailsName field : Bytes) : List Int :=
  match (usage.lookup detailsName).bind object? with
  | some details => reported details [field]
  | none => []

structure ExactCounters (usages : List Json) (r : UsageReading) : Prop where
  input : r.inputTokens = raisedTo 0 (usages.flatMap fun u => reported u inputKeys)
  output : r.outputTokens = raisedTo 0 (usages.flatMap fun u => reported u outputKeys)
  cacheCreate :
    r.cacheCreateTokens = raisedTo 0 (usages.flatMap fun u => reported u cacheCreateKeys)
  cacheRead : r.cacheReadTokens = raisedTo 0 (usages.flatMap fun u => reported u cacheReadKeys)
  reasoning : r.reasoningTokens = raisedTo 0 (usages.flatMap fun u =>
    reported u reasoningKeys ++ reportedDetail u "output_tokens_details" "reasoning_tokens")

def Sticky (rj : RapidJson) (events : List Bytes) (r : UsageReading) : Prop :=
  (r.malformedUsage = true ↔
      ∃ usage ∈ carriedUsages rj events, usageHasInvalidCounts usage = .ok true) ∧
    (r.malformedUsage = false → ExactCounters (carriedUsages rj events) r)

def readEvent (rj : RapidJson) (r : UsageReading) (event : Bytes) : UsageReading :=
  ((carriedUsage rj event).map fun usage => streamReading rj usage r).getD r

variable (rj : RapidJson)

theorem foldl_readEvent (events : List Bytes) (r : UsageReading) : events.foldl (readEvent rj) r =
      (carriedUsages rj events).foldl (fun r usage => streamReading rj usage r) r := by
  induction events generalizing r with
  | nil => rfl
  | cons event events ih =>
    rw [foldl_cons, ih]
    unfold carriedUsages readEvent
    cases hc : carriedUsage rj event with
    | none => simp [hc]
    | some usage => simp [hc]

theorem isObject_of_mem_carriedUsages {rj : RapidJson} {events : List Bytes} {usage : Json}
    (h : usage ∈ carriedUsages rj events) : usage.isObject := by
  obtain ⟨event, -, hc⟩ := mem_filterMap.1 h
  obtain ⟨document, -, hu⟩ := bind_eq_some_iff.1 hc
  exact isObject_of_streamUsageAt hu

theorem counter_foldl_streamReading {counter : UsageReading → Int} {values : Json → List Int}
    (hs : ∀ usage r, counter (streamReading rj usage r) = raisedTo (counter r) (values usage))
    (usages : List Json) (r : UsageReading) :
    counter (usages.foldl (fun r usage => streamReading rj usage r) r) =
      raisedTo (counter r) (usages.flatMap values) := by
  induction usages generalizing r with
  | nil => rfl
  | cons usage usages ih => rw [foldl_cons, ih, hs, flatMap_cons, raisedTo_append]

theorem malformed_foldl_streamReading (usages : List Json) (r : UsageReading) :
    (usages.foldl (fun r usage => streamReading rj usage r) r).malformedUsage =
      (usages.getLast?.map invalidCounts).getD r.malformedUsage := by
  induction usages generalizing r with
  | nil => rfl
  | cons usage usages ih =>
    rw [foldl_cons, ih]
    cases usages with
    | nil => rfl
    | cons u us =>
      rw [getLast?_cons_cons]
      cases hl : (u :: us).getLast? with
      | none => cases getLast?_eq_none_iff.1 hl
      | some last => rfl

variable {keys : List Bytes}

theorem counts_eq_reported {object : Json}
    (h : ∀ key ∈ keys, ∀ value, object.lookup key = some value → validUsageCount value) :
    counts object keys = reported object keys := by
  unfold counts reported
  refine filterMap_congr fun key hk => ?_
  cases hl : object.lookup key with
  | none => rfl
  | some value =>
    obtain ⟨n, rfl, h0, h1⟩ := validUsageCount_iff.1 (h key hk value hl)
    simp only [map_some, bind_some, integer_of_valid h0 h1, rawInteger]

section

variable {usage : Json} (hv : invalidCounts usage = false)

include hv

theorem counts_eq_reported_of_valid (hk : keys ⊆ countFields) :
    counts usage keys = reported usage keys :=
  counts_eq_reported fun _ hke _ hl => validUsageCount_of_lookup hv (hk hke) hl

theorem detailCounts_eq_reportedDetail {name field : Bytes} (hn : name ∈ detailsNames)
    (hf : field ∈ detailsFields) :
    detailCounts usage name field = reportedDetail usage name field := by
  unfold detailCounts reportedDetail
  cases hd : (usage.lookup name).bind object? with
  | none => rfl
  | some details =>
    obtain ⟨value, hl, ho⟩ := bind_eq_some_iff.1 hd
    obtain ⟨-, rfl⟩ := object?_eq_some.1 ho
    refine counts_eq_reported fun key hk v hlv => ?_
    rw [mem_singleton.1 hk] at hlv; exact validUsageCount_of_details hv hn hf hl hlv

end

theorem exactCounters_foldl (rj : RapidJson) {usages : List Json}
    (hv : ∀ usage ∈ usages, invalidCounts usage = false) :
    ExactCounters usages (usages.foldl (fun r usage => streamReading rj usage r) {}) := by
  have hke : ∀ keys ⊆ countFields, ∀ u ∈ usages, counts u keys = reported u keys :=
    fun keys hk u hu => counts_eq_reported_of_valid (hv u hu) hk
  have he : ∀ (counter : UsageReading → Int) (values exact : Json → List Int),
      (∀ u r, counter (streamReading rj u r) = raisedTo (counter r) (values u)) →
      (∀ u ∈ usages, values u = exact u) → counter {} = 0 →
      counter (usages.foldl (fun r usage => streamReading rj usage r) {}) =
        raisedTo 0 (usages.flatMap exact) := by
    intro counter values exact hs hsa hz
    rw [counter_foldl_streamReading rj hs, hz, flatMap_congr hsa]
  refine ⟨?_, ?_, ?_, ?_, ?_⟩
  · exact he (·.inputTokens) _ _ (fun _ _ => rfl) (hke inputKeys (by decide)) rfl
  · exact he (·.outputTokens) _ _ (fun _ _ => rfl) (hke outputKeys (by decide)) rfl
  · exact he (·.cacheCreateTokens) _ _ (fun _ _ => rfl) (hke cacheCreateKeys (by decide)) rfl
  · exact he (·.cacheReadTokens) _ _ (fun _ _ => rfl) (hke cacheReadKeys (by decide)) rfl
  · refine he (·.reasoningTokens) _ _ (fun _ _ => rfl) (fun u hu => ?_) rfl
    rw [hke reasoningKeys (by decide) u hu,
      detailCounts_eq_reportedDetail (hv u hu) (by decide) (by decide)]

def LastInvalid (rj : RapidJson) (events : List Bytes) : Prop :=
  ∀ last, (carriedUsages rj events).getLast? = some last → invalidCounts last = false →
    ∀ usage ∈ carriedUsages rj events, invalidCounts usage = false

theorem sticky_foldl_iff (rj : RapidJson) (events : List Bytes) :
    Sticky rj events (events.foldl (readEvent rj) {}) ↔ LastInvalid rj events := by
  have hv : ∀ u ∈ carriedUsages rj events,
      (usageHasInvalidCounts u = .ok true ↔ invalidCounts u) := by
    intro u hu
    rw [usageHasInvalidCounts_of_object (isObject_of_mem_carriedUsages hu), Except.ok.injEq]
  unfold Sticky LastInvalid
  rw [foldl_readEvent, malformed_foldl_streamReading]
  constructor
  · rintro ⟨hif, -⟩ last hl hvalid usage hm
    by_contra hi
    have hs := hif.2 ⟨usage, hm, (hv usage hm).2 (by simpa using hi)⟩
    rw [hl, map_some, getD_some, hvalid] at hs; cases hs
  · intro hla
    cases hl : (carriedUsages rj events).getLast? with
    | none =>
      have hn : carriedUsages rj events = [] := getLast?_eq_none_iff.1 hl
      refine ⟨by simp [hn], fun _ => ?_⟩
      exact exactCounters_foldl rj (by simp [hn])
    | some last =>
      have hm : last ∈ carriedUsages rj events := mem_of_getLast? hl
      rw [map_some, getD_some]
      refine ⟨⟨fun h => ⟨last, hm, (hv last hm).2 h⟩, ?_⟩, fun h => ?_⟩
      · rintro ⟨usage, hu, hi⟩
        by_contra hvalid
        have ha := hla last hl (by simpa using hvalid) usage hu
        rw [(hv usage hu).1 hi] at ha; cases ha
      · exact exactCounters_foldl rj (hla last hl h)

variable {outcome : ReadOutcome}

namespace StreamPipe

section

variable (p : StreamPipe) (env : Surroundings)

def observed (st : PipeState) : UsageReading × Bool :=
  (st.result.toUsageReading, st.result.completed)

def observeEvent (o : UsageReading × Bool) (event : Bytes) : UsageReading × Bool :=
  (readEvent p.rj o.1 event, o.2)

theorem foldl_observeEvent (events : List Bytes) (o : UsageReading × Bool) :
    events.foldl p.observeEvent o = (events.foldl (readEvent p.rj) o.1, o.2) := by
  induction events generalizing o with
  | nil => rfl
  | cons event events ih => exact ih (p.observeEvent o event)

variable (st : PipeState) (provider client chunk : Bytes)

@[simp] theorem observed_tick : observed st.tick = observed st := rfl

@[simp] theorem observed_finish : observed (finish env st) = observed st := by
  unfold observed
  rw [finish_result]

@[simp] theorem observed_clientLost : observed (clientLost env st) = observed st := by
  unfold clientLost
  rw [observed_finish]
  rfl

@[simp] theorem observed_timeOut : observed (timeOut env st) = observed st := by
  unfold timeOut
  rw [observed_finish]
  rfl

theorem observed_endOfStream : observed (endOfStream env st) = ((observed st).1, true) := by
  unfold endOfStream
  rw [observed_finish]
  split <;> rfl

@[simp] theorem observed_received : observed (received env st) = observed st := by
  obtain ⟨ms, h⟩ := received_result env st
  unfold observed
  rw [h]

@[simp] theorem observed_emitPolicyError : observed (p.emitPolicyError env st) = observed st := by
  obtain ⟨k, delivered, bytes, lost, -, h⟩ := emitPolicyError_spec p env st
  rw [h]
  rfl

theorem observed_applyPolicy (st : PipeState) :
    observed (p.applyPolicy provider client st).2 = observed st := by
  rcases applyPolicy_cases p provider client st with ⟨h, -⟩ | ⟨d, -, h⟩ | ⟨d, st', hst', -, h⟩
  · rw [h]
  · rw [h]; rfl
  · rw [h]
    rcases hst' with rfl | rfl <;> rfl

theorem observed_deliver (st : PipeState) :
    observed (stateOf (p.deliver env provider client st)) = observed st := by
  have hp : ∀ {b st'}, p.applyPolicy provider client st = (b, st') →
      observed st' = observed st := by
    intro b st' h
    have hs := observed_applyPolicy p provider client st
    rwa [h] at hs
  rcases deliver_cases p env provider client st with
    ⟨st', ha, h⟩ | ⟨st', ha, ⟨-, h⟩ | ⟨k, delivered, -, -, ⟨-, h⟩ | h⟩⟩
  · rw [h, stateOf_error, observed_finish, observed_emitPolicyError, hp ha]
  · rw [h, stateOf_ok, hp ha]
  · rw [h, ← hp ha]; rfl
  · rw [h, stateOf_error, observed_clientLost, ← hp ha]; rfl

theorem observed_passEvent (event : Bytes) :
    observed (stateOf (p.passEvent env st event)) = p.observeEvent (observed st) event := by
  have hn : observed { st with result := p.noteTerminal event (p.readUsage event st.result) } =
      p.observeEvent (observed st) event := by
    have hr : (p.readUsage event st.result).toUsageReading =
        readEvent p.rj st.result.toUsageReading event := by
      unfold readUsage
      rw [extractUsageFromEvent_eq]; rfl
    unfold observed observeEvent noteTerminal
    rw [← hr]
    split <;> rfl
  have hde := observed_deliver p env event event
    { st with result := p.noteTerminal event (p.readUsage event st.result) }
  rw [hn] at hde
  unfold passEvent
  simp only
  split
  · exact hn
  · cases hd : p.deliver env event event
        { st with result := p.noteTerminal event (p.readUsage event st.result) } with
    | error s => rw [hd] at hde; exact hde
    | ok s => rw [hd] at hde; exact hde

theorem observed_passOn (st : PipeState) :
    observed (stateOf (p.passOn env chunk st)) = observed st := by
  unfold passOn
  split
  · obtain ⟨k, c, w, delivered, h | h⟩ := zeroCopy_cases env chunk st
    · rw [h]; rfl
    · rw [h, stateOf_error, observed_clientLost]; rfl
  · rfl

theorem observed_keepRest (rest : Bytes) (st : PipeState) :
    observed (stateOf (p.keepRest env rest st)) = observed st := by
  rcases keepRest_cases p env rest st with ⟨h, -⟩ | ⟨-, -, h⟩
  · rw [h]; rfl
  · rw [h, stateOf_error, observed_finish, observed_emitPolicyError, observed_applyPolicy]

theorem observed_passSilence : observed (stateOf (p.passSilence env st)) = observed st := by
  unfold passSilence
  split
  · rcases keepalive_cases p env st with ⟨-, h⟩ | ⟨-, delivered, -, h⟩
    · rw [h]; rfl
    · rw [h]
      simp only
      split
      · rw [stateOf_error, observed_finish]; rfl
      · rfl
  · rfl

theorem observed_passEvents (st : PipeState) : observed (stateOf (p.passEvents env chunk st)) =
      (visited (p.passEvent env) (nextEvent.frames (st.acc ++ chunk)).1 st).foldl
        p.observeEvent (observed st) := by
  have hl := observe_foldlM (f := observed) (observed_passEvent p env)
    (nextEvent.frames (st.acc ++ chunk)).1 st
  unfold passEvents
  simp only
  cases hf : (nextEvent.frames (st.acc ++ chunk)).1.foldlM (p.passEvent env) st with
  | error s => rw [hf] at hl; exact hl
  | ok s => rw [hf] at hl; rw [ok_bind, observed_keepRest]; exact hl

def seenAt (st : PipeState) : ReadOutcome → List Bytes
  | .error _ => []
  | .bytes [] => []
  | .bytes (b :: bs) =>
    if p.totalTimeout env st then []
    else
      match p.passOn env (b :: bs) (received env st.tick) with
      | .ok s => visited (p.passEvent env) (nextEvent.frames (st.acc ++ b :: bs)).1 s
      | .error _ => []

def seenEvents (reads : List ReadOutcome) : List Bytes :=
  collect (p.step env) (p.seenAt env) reads (start env)

theorem observed_step (hm : p.mode = .passthrough) (st : PipeState) (hmore : outcome ≠ .bytes []) :
    observed (stateOf (p.step env st outcome)) =
      (p.seenAt env st outcome).foldl p.observeEvent (observed st) := by
  unfold step
  rw [if_pos hm]
  rcases round_cases p env (p.passSilence env) (p.passChunk env) st outcome with
    ⟨ht, h⟩ | ⟨ht, ⟨errno, rfl, h⟩ | ⟨rfl, -⟩ | ⟨b, bs, rfl, h⟩⟩
  · have hn : p.seenAt env st outcome = [] := by
      match outcome with
      | .error _ => rfl
      | .bytes [] => rfl
      | .bytes (b :: bs) => simp only [seenAt, ht, if_true]
    rw [h, hn, stateOf_error, observed_timeOut]; rfl
  · rw [h]
    rcases readFailed_cases p env errno st.tick with ⟨hf, -, -⟩ | ⟨gone, late, clock, ms, -, hf⟩
    · rw [hf, ok_bind, observed_passSilence]; rfl
    · rw [hf]; rfl
  · exact absurd rfl hmore
  · rw [h]
    simp only [seenAt, ht, Bool.false_eq_true, if_false]
    unfold passChunk
    have hon := observed_passOn p env (b :: bs) (received env st.tick)
    have ha := passOn_acc p env (b :: bs) (received env st.tick)
    cases hr : p.passOn env (b :: bs) (received env st.tick) with
    | error s => rw [hr] at hon; rw [error_bind, stateOf_error]; simpa using hon
    | ok s =>
      rw [hr] at hon ha
      have hs : s.acc = st.acc := by simpa using ha.1
      have hu : observed s = observed st := by simpa using hon
      rw [ok_bind, observed_passEvents, hs, hu]

theorem observed_step_eof :
    (observed (stateOf (p.step env st (.bytes [])))).1 = (observed st).1 := by
  rw [step_eof, stateOf_error]
  split
  · rw [observed_timeOut, observed_tick]
  · rw [observed_endOfStream, observed_tick]

theorem usage_run (hm : p.mode = .passthrough) (reads : List ReadOutcome) :
    (p.run env reads).result.toUsageReading =
      (p.seenEvents env reads).foldl (readEvent p.rj) {} := by
  refine observe_drive (f := fun st => (observed st).1) (fun st outcome => ?_)
    (observed_step_eof p env) reads (start env)
  by_cases he : outcome = .bytes []
  · subst he; exact observed_step_eof p env st
  · rw [observed_step p env hm st he, foldl_observeEvent]

theorem seenAt_of_ok (hm : p.mode = .passthrough) {st st' : PipeState}
    (h : p.step env st outcome = .ok st') :
    p.seenAt env st outcome = (p.taken st.acc outcome).1 := by
  match outcome with
  | .error errno => rfl
  | .bytes [] => rw [step_eof] at h; cases h
  | .bytes (b :: bs) =>
    unfold step at h
    rw [if_pos hm] at h
    rcases round_cases p env (p.passSilence env) (p.passChunk env) st (.bytes (b :: bs)) with
      ⟨ht, hr⟩ | ⟨ht, ⟨errno, he, -⟩ | ⟨he, -⟩ | ⟨c, cs, he, hr⟩⟩
    · rw [hr] at h; cases h
    · cases he
    · cases he
    · cases he
      rw [hr] at h
      simp only [seenAt, ht, Bool.false_eq_true, if_false, taken]
      have ha := passOn_acc p env (b :: bs) (received env st.tick)
      unfold passChunk at h
      cases hon : p.passOn env (b :: bs) (received env st.tick) with
      | error s => rw [hon] at h; cases h
      | ok s =>
        rw [hon] at ha
        have hs : s.acc = st.acc := by simpa using ha.1
        rw [hon, ok_bind] at h
        unfold passEvents at h
        simp only [hs] at h
        cases hf : (nextEvent.frames (st.acc ++ b :: bs)).1.foldlM (p.passEvent env) s with
        | error t => rw [hf] at h; cases h
        | ok t => exact visited_of_ok hf

theorem collect_seenAt_of_completed (hm : p.mode = .passthrough) (reads : List ReadOutcome)
    {st : PipeState} (hst : st.result.completed = false)
    (hd : (drive (p.step env) (.bytes []) reads st).result.completed) :
    collect (p.step env) (p.seenAt env) reads st = p.cutEvents st.acc reads := by
  induction reads generalizing st with
  | nil => rfl
  | cons outcome outcomes ih =>
    by_cases he : outcome = .bytes []
    · subst he; simp only [collect, step_eof]; rfl
    · have hsa : (stateOf (p.step env st outcome)).result.completed = false := by
        have ho := congrArg Prod.snd (observed_step p env hm st he)
        rw [foldl_observeEvent] at ho; exact ho.trans hst
      cases hs : p.step env st outcome with
      | error s => rw [drive_cons_of_error hs] at hd; rw [hs, stateOf_error, hd] at hsa; cases hsa
      | ok s =>
        rw [hs] at hsa
        rw [drive_cons_of_ok hs] at hd
        simp only [collect, hs]
        have hr := ih (show s.result.completed = false from hsa) hd
        rw [cutEvents_cons p st.acc he, seenAt_of_ok p env hm hs, hr, acc_of_step p env hs]

def readBytes : List ReadOutcome → Bytes
  | [] => []
  | .error _ :: outcomes => readBytes outcomes
  | .bytes [] :: _ => []
  | .bytes (b :: bs) :: outcomes => (b :: bs) ++ readBytes outcomes

def Uncut (reads : List ReadOutcome) : Prop :=
  ∀ front ∈ reads.inits,
    (nextEvent.frames (readBytes front)).2.length ≤ p.config.readBufSize * 4

instance (reads : List ReadOutcome) : Decidable (p.Uncut reads) := decidableBAll _ _

theorem cutEvents_eq_frames (reads : List ReadOutcome) {acc : Bytes} (hacc : nextEvent.cut acc =
    none) (hshort : ∀ front ∈ reads.inits,
      (nextEvent.frames (acc ++ readBytes front)).2.length ≤ p.config.readBufSize * 4) :
    p.cutEvents acc reads = (nextEvent.frames (acc ++ readBytes reads)).1 := by
  induction reads generalizing acc with
  | nil => rw [readBytes, append_nil, frames_of_none hacc]; rfl
  | cons outcome outcomes ih =>
    rw [inits_cons, forall_mem_cons, List.forall_mem_map] at hshort
    match outcome with
    | .error errno => exact ih hacc hshort.2
    | .bytes [] => rw [readBytes, append_nil, frames_of_none hacc]; rfl
    | .bytes (b :: bs) =>
      have hrest : (nextEvent.frames (acc ++ b :: bs)).2.length ≤ p.config.readBufSize * 4 := by
        simpa [readBytes] using hshort.2 [] (by simp)
      have hkept : (p.taken acc (.bytes (b :: bs))).2 = (nextEvent.frames (acc ++ b :: bs)).2 := by
        have hwhole : p.keptTail (nextEvent.frames (acc ++ b :: bs)).2 =
            (nextEvent.frames (acc ++ b :: bs)).2 := if_neg (Nat.not_lt.2 hrest)
        simp only [taken, hwhole, ite_self]
      have hnext : ∀ front ∈ outcomes.inits, (nextEvent.frames
          ((nextEvent.frames (acc ++ b :: bs)).2 ++ readBytes front)).2.length ≤
            p.config.readBufSize * 4 := by
        intro front hfront
        have hlong := hshort.2 front hfront
        rwa [readBytes, ← append_assoc, frames_append (acc ++ b :: bs)] at hlong
      rw [cutEvents_cons p acc (by simp), hkept, ih (cut_rest _) hnext, readBytes, ← append_assoc,
        frames_append (acc ++ b :: bs)]
      rfl

theorem seenAt_isPrefix (st : PipeState) (outcome : ReadOutcome) :
    p.seenAt env st outcome <+: (p.taken st.acc outcome).1 := by
  match outcome with
  | .error errno => exact nil_prefix
  | .bytes [] => exact nil_prefix
  | .bytes (b :: bs) =>
    simp only [seenAt, taken]
    split
    · exact nil_prefix
    · split
      · exact visited_isPrefix _ _
      · exact nil_prefix

theorem collect_seenAt_isPrefix (hm : p.mode = .passthrough) (reads : List ReadOutcome)
    (st : PipeState) :
    collect (p.step env) (p.seenAt env) reads st <+: p.cutEvents st.acc reads := by
  induction reads generalizing st with
  | nil => exact nil_prefix
  | cons outcome outcomes ih =>
    by_cases heof : outcome = .bytes []
    · subst heof; simp only [collect, step_eof]; exact nil_prefix
    · rw [cutEvents_cons p st.acc heof]
      cases hstep : p.step env st outcome with
      | error s =>
        simp only [collect, hstep, append_nil]
        exact (p.seenAt_isPrefix env st outcome).trans (prefix_append _ _)
      | ok s =>
        simp only [collect, hstep]
        rw [seenAt_of_ok p env hm hstep, ← acc_of_step p env hstep]
        exact (prefix_append_right_inj _).2 (ih s)

theorem malformed_usage_sticky_iff (hmode : p.mode = .passthrough) {reads : List ReadOutcome}
    (huncut : p.Uncut reads) :
    let events := (nextEvent.frames (readBytes reads)).1
    let result := (p.run env reads).result
    (result.completed = true →
      (Sticky p.rj events result.toUsageReading ↔ LastInvalid p.rj events)) ∧
    ∃ seen, seen <+: events ∧ result.toUsageReading = seen.foldl (readEvent p.rj) {} ∧
      (Sticky p.rj seen result.toUsageReading ↔ LastInvalid p.rj seen) := by
  intro events result
  have husage : result.toUsageReading = (p.seenEvents env reads).foldl (readEvent p.rj) {} :=
    usage_run p env hmode reads
  have hevents : p.cutEvents [] reads = events := cutEvents_eq_frames p reads rfl huncut
  refine ⟨fun hdone => ?_, p.seenEvents env reads, ?_, husage, ?_⟩
  · have hseen : p.seenEvents env reads = events :=
      (collect_seenAt_of_completed p env hmode reads rfl hdone).trans hevents
    rw [husage, hseen]; exact sticky_foldl_iff p.rj events
  · rw [← hevents]; exact collect_seenAt_isPrefix p env hmode reads (start env)
  · rw [husage]; exact sticky_foldl_iff p.rj (p.seenEvents env reads)

end

def promptUsage (n : Int) : Json := .object [("prompt_tokens", .int n)]

def promptUsageText (digits : Bytes) : Bytes := "\x7b\"prompt_tokens\":" ++ digits ++ "\x7d"

def promptEvent (digits : Bytes) : Bytes :=
  "data: " ++ usageDocumentText (promptUsageText digits) ++ "\n\n"

def promptJson (counts : List (Bytes × Int)) : RapidJson where
  parse b := (counts.map fun (digits, n) =>
    (usageDocumentText (promptUsageText digits), usageDocument (promptUsage n))).lookup b
  write j :=
    match (j.lookup "prompt_tokens").bind rawInteger with
    | some n => ((counts.find? (·.2 = n)).map fun (digits, _) => promptUsageText digits).getD []
    | none => []

def promptStream (first second : Bytes) : List ReadOutcome :=
  [.bytes (promptEvent first), .bytes (promptEvent second), .bytes "data: [DONE]\n\n"]

def promptPipe : StreamPipe :=
  guardedPipe (answering .allow) (promptJson [("4294967306", 4294967306), ("7", 7)])

theorem invalid_last_count_sticks :
    let reads := promptStream "7" "4294967306"
    let events := [promptEvent "7", promptEvent "4294967306", "data: [DONE]\n\n"]
    (nextEvent.frames (readBytes reads)).1 = events ∧
      (promptPipe.run patientClient reads).result.malformedUsage = true ∧
      Sticky promptPipe.rj events (promptPipe.run patientClient reads).result.toUsageReading := by
  have hevents : (nextEvent.frames (readBytes (promptStream "7" "4294967306"))).1 =
      [promptEvent "7", promptEvent "4294967306", "data: [DONE]\n\n"] := by
    decide +kernel
  have huncut : promptPipe.Uncut (promptStream "7" "4294967306") := by decide +kernel
  have hverdict :=
    (malformed_usage_sticky_iff promptPipe patientClient rfl huncut).1 (by decide +kernel)
  rw [hevents] at hverdict
  refine ⟨hevents, by decide +kernel, hverdict.2 ?_⟩
  have hcarried : carriedUsages promptPipe.rj
      [promptEvent "7", promptEvent "4294967306", "data: [DONE]\n\n"] =
        [promptUsage 7, promptUsage 4294967306] := rfl
  intro last hlast hvalid
  rw [hcarried, getLast?_cons_cons, getLast?_singleton, Option.some.injEq] at hlast
  subst hlast
  cases hvalid

theorem valid_usage_hides_wrapped_count :
    let reads := promptStream "4294967306" "7"
    let result := (promptPipe.run patientClient reads).result
    usageHasInvalidCounts (promptUsage 4294967306) = .ok true ∧ promptPipe.Uncut reads ∧
      result.completed ∧ result.malformedUsage = false ∧ result.inputTokens = 10 ∧
      ¬ Sticky promptPipe.rj (nextEvent.frames (readBytes reads)).1 result.toUsageReading := by
  have hevents : (nextEvent.frames (readBytes (promptStream "4294967306" "7"))).1 =
      [promptEvent "4294967306", promptEvent "7", "data: [DONE]\n\n"] := by
    decide +kernel
  have hvalid : (promptPipe.run patientClient
      (promptStream "4294967306" "7")).result.malformedUsage = false := by
    decide +kernel
  have hcarried : carriedUsages promptPipe.rj
      [promptEvent "4294967306", promptEvent "7", "data: [DONE]\n\n"] =
        [promptUsage 4294967306, promptUsage 7] := rfl
  refine ⟨rfl, by decide +kernel, by decide +kernel, hvalid, by decide +kernel, fun hsticky => ?_⟩
  rw [hevents, Sticky, hcarried] at hsticky
  have hmalformed := hsticky.1.2 ⟨promptUsage 4294967306, mem_cons_self, rfl⟩
  rw [hvalid] at hmalformed
  cases hmalformed

end StreamPipe

end Gateway.Forwarder
