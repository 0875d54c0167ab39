import Gateway.Cache.GarnetClient
import Gateway.Server.RouteTemplates

/-! # The router -/

namespace Gateway.Server

open Lib Cache List

structure Router where
  connected : Bool
  garnet : Connection
  durable : Bool
  counters : Bytes

inductive Routed where
  | answered (statusCode : Int) (body : Bytes)
  | handled (matched : MatchedCapability)

def Routed.code : Routed → Option Int
  | .answered statusCode _ => some statusCode
  | .handled _ => none

def registryMethods : List Bytes := ["GET", "POST", "PUT", "DELETE", "PATCH"]

def pathMatchesAny (path : Bytes) : Bool :=
  registryMethods.any fun method => (matchCapability method path).isSome

namespace Router

variable (router : Router)

def ownPaths : List Bytes := ["/live", "/ready", "/metrics"]

def flag (value : Bool) : Bytes := if value then "true" else "false"

def ready : Routed :=
  let garnetOk := ping router.garnet
  let ready := router.connected && garnetOk && router.durable
  .answered (if ready then 200 else 503) (if ready then "\x7b\"status\":\"ready\"\x7d"
    else "\x7b\"status\":\"not_ready\",\"dispatch\":" ++ flag router.connected ++
      ",\"garnet\":" ++ flag garnetOk ++ ",\"sqlite\":" ++ flag router.durable ++ "\x7d")

def modelList : Routed :=
  let cached := get router.garnet "models:list"
  if cached.error then
    .answered 503 (literalError "cache_unavailable" "Model catalog temporarily unavailable")
  else .answered 200 (if cached.found && !cached.value.isEmpty then cached.value
    else "\x7b\"object\":\"list\",\"data\":[]\x7d")

def handleRequest (req : HttpRequest) : Routed :=
  if req.path = "/live" then .answered 200 "\x7b\"status\":\"live\"\x7d"
  else if req.path = "/ready" then router.ready
  else if req.path = "/metrics" then .answered 200 router.counters
  else match matchCapability req.method req.path with
    | some matched =>
      if matched.spec.capability = .models ∧ req.authorization = [] ∧ req.xApiKey = [] then
        router.modelList
      else .handled matched
    | none =>
      if pathMatchesAny req.path then .answered 405 (literalError "method_not_allowed"
        "HTTP method is not supported for this endpoint")
      else .answered 404 (literalError "not_found_error" "Unknown or unsupported endpoint")

end Router

theorem pathMatchesAny_iff (path : Bytes) :
    pathMatchesAny path ↔ ∃ method, matchCapability method path ≠ none := by
  have hverbs : ∀ r ∈ recognised, r.verb ∈ registryMethods := by decide
  simp only [pathMatchesAny, any_eq_true, Option.isSome_iff_ne_none]
  refine ⟨fun ⟨method, _, h⟩ => ⟨method, h⟩, fun ⟨method, h⟩ => ?_⟩
  obtain ⟨m, hm⟩ := Option.ne_none_iff_exists'.1 h
  obtain ⟨r, hr, -, rfl, -⟩ := matchCapability_follows hm
  exact ⟨_, hverbs r hr, h⟩

/-- A path is unknown if no method whatever is routed on it, and a method is refused as such only
where another one is routed. -/
theorem Router.refusals (router : Router) (req : HttpRequest) :
    ((router.handleRequest req).code = some 404 ↔ req.path ∉ Router.ownPaths ∧
      ∀ method, matchCapability method req.path = none) ∧
    ((router.handleRequest req).code = some 405 ↔ matchCapability req.method req.path = none ∧
      ∃ method, matchCapability method req.path ≠ none) ∧
    ∀ m, router.handleRequest req = .handled m → ∃ r ∈ recognised,
      r.operation = m.operation ∧ r.verb = req.method ∧ r.Addresses req.path := by
  unfold handleRequest
  split
  next hp => simp [Routed.code, hp, ownPaths, matchCapability]
  split
  next hp =>
    simp only [ready, Routed.code]
    split <;> simp [hp, ownPaths, matchCapability]
  split
  next hp => simp [Routed.code, hp, ownPaths, matchCapability]
  next hlive hready hmetrics =>
    have hown : req.path ∉ ownPaths := by simp [ownPaths, hlive, hready, hmetrics]
    have hall : (∀ method, matchCapability method req.path = none) ↔
        ¬ ∃ method, matchCapability method req.path ≠ none := by simp
    rw [hall, ← pathMatchesAny_iff]
    cases hm : matchCapability req.method req.path with
    | some m =>
      have hany : pathMatchesAny req.path := (pathMatchesAny_iff _).2 ⟨req.method, by simp [hm]⟩
      dsimp only
      split
      · simp only [modelList]
        split <;> simp [Routed.code, hany]
      · refine ⟨by simp [Routed.code, hany], by simp [Routed.code], fun m' h => ?_⟩
        cases h; exact matchCapability_follows hm
    | none => cases pathMatchesAny req.path <;> simp [hown, Routed.code]

end Gateway.Server
