import Gateway.Server.Answer

/-! # The last forward of a whole run -/

namespace Gateway.Server

open Lib Dispatch Forwarder Context

theorem lastForward_settle (c : Context) (st : Handler) :
    lastForward (c.settle st).log = lastForward st.log := by
  obtain ⟨more, hl, hm⟩ := settle_log c st
  rw [hl]
  apply lastForward_append_of_none
  intro a ha
  have hs := hm a ha
  cases a with
  | forwarded lease r => cases hs
  | _ => rfl

section

variable {w : World} {req : HttpRequest} {resp : HttpResponse} {matched : MatchedCapability}

structure Serves (w : World) (req : HttpRequest) (matched : MatchedCapability) (c : Context) :
    Prop where
  sameWorld : c.world = w
  sameRequest : c.req = req
  sameCapability : c.matched = matched
  unstreamed : matched.spec.canStream = false → c.isStream = false
  mediaRequestUsage : c.mediaRequestUsage =
    Protocol.Converter.parseMediaRequest w.rj req.body req.contentType matched.operation

theorem prepare_serves {c : Context} {st : Handler} (h : prepare w req resp matched = .ok (c, st)) :
    Unanswered resp.body st ∧ Serves w req matched c := by
  have he := entered_of_prepare h
  obtain ⟨-, -, hu, has⟩ := prepare_ok h
  refine ⟨⟨fun r hr => ?_, fun a ha => .inl (has a ha), ?_, ?_, ?_, ?_, ?_⟩,
    he.sameWorld, he.sameRequest, he.sameCapability, fun hno => ?_, hu⟩
  · have hn : lastForward st.log = none := @lastForward_append [] _ has
    rw [hn] at hr; cases hr
  · rw [he.state]; rfl
  · rw [he.state]
  · rw [he.state]
  · rw [he.state]
  · rw [he.state]
  · rw [he.isStream, streams, hno]; rfl

theorem Unleased.lastForward_eq_none {log : List Action} (h : Unleased log) :
    lastForward log = none := by
  have hn : log.filterMap Action.forwardResult? = [] := by
    refine List.filterMap_eq_nil_iff.2 fun a ha => ?_
    have hi := (h a ha).1
    cases a with
    | forwarded lease r => cases hi
    | _ => rfl
  simp [lastForward, hn]

def isStreamed (w : World) (req : HttpRequest) (resp : HttpResponse)
    (matched : MatchedCapability) : Bool :=
  match prepare w req resp matched with
  | .ok (c, _) => c.isStream
  | .error _ => false

theorem isStreamed_of_canStream (h : matched.spec.canStream = false) :
    isStreamed w req resp matched = false := by
  unfold isStreamed
  split
  · next c st heq => exact (prepare_serves heq).2.unstreamed h
  · rfl

theorem handle_answered {fuel : Nat} (hs : isStreamed w req resp matched = false)
    {r : ForwardResult} (hl : lastForward (handle w req resp matched fuel).log = some r)
    (hsu : isSuccess r.statusCode) :
    ∃ (c : Context) (st : Handler), Serves w req matched c ∧ c.isStream = false ∧
      handle w req resp matched fuel = c.settle st ∧ Answered resp.body st ∧
      lastForward st.log = some r := by
  have he : Enters w req matched (prepare w req resp matched) := prepare_enters resp
  unfold isStreamed at hs
  unfold handle at hl ⊢
  cases hp : prepare w req resp matched with
  | error st =>
    rw [hp] at hl he
    have hn : lastForward st.log = none := he.lastForward_eq_none
    rw [hn] at hl; cases hl
  | ok entered =>
    obtain ⟨c, st⟩ := entered
    obtain ⟨hu, hse⟩ := prepare_serves hp
    rw [hp] at hl hs
    refine ⟨c, c.rounds fuel st, hse, hs, ?_⟩
    dsimp only at hl ⊢
    unfold serve at hl ⊢
    dsimp only at hl ⊢
    by_cases hbr : (c.rounds fuel st).exit = .broke
    · rw [if_pos hbr] at hl ⊢
      rw [lastForward_settle] at hl
      exact ⟨rfl, (rounds_answered hs fuel hu hl hsu).2, hl⟩
    · rw [if_neg hbr] at hl; exact absurd (rounds_answered hs fuel hu hl hsu).1 hbr

end

end Gateway.Server
