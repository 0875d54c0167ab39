import Mathlib.Data.List.DropRight
import Gateway.Protocol.Converter

/-! # Validation and media metadata -/

namespace Gateway.Protocol.Converter

open Lib Json

abbrev ValidationResult := Except Bytes Unit

def reject (failed : Bool) (message : Bytes) : ValidationResult :=
  if failed then .error message else .ok ()

variable (rj : RapidJson)

def parseObject (body : Bytes) : Option Json := (rj.parse body).bind object?

def textAt (object : Json) (key : Bytes) : Option Bytes := (object.lookup key).bind text?

def arrayOf (object : Json) (key : Bytes) : Option (List Json) :=
  (object.lookup key).bind array?

def objectAt (object : Json) (key : Bytes) : Option Json := (object.lookup key).bind object?

def intOf (object : Json) (key : Bytes) : Option Int := (object.lookup key).bind int?

def int64Of (object : Json) (key : Bytes) : Option Int :=
  (object.lookup key).bind fun value => if value.isInt64 then some value.getInteger else none

def isText (value : Json) : Bool := value.text?.any (!·.isEmpty)

def hasText (object : Json) (key : Bytes) : Bool := (object.lookup key).any isText

def hasPositive (object : Json) (key : Bytes) : Bool := (int64Of object key).any (0 < ·)

def maxInputs : Nat := 2048

def validateEmbeddingsInput : Json → ValidationResult
  | .string text => reject text.isEmpty "input must not be empty"
  | .array values => do
    reject values.isEmpty "input must not be an empty array"
    reject (values.length > maxInputs) "input must contain at most 2048 strings"
    reject (values.any (!isText ·)) "input array entries must be non-empty strings"
  | _ => .error "input must be a string or an array of strings"

def maxDimensionsFor (model : Bytes) : Int :=
  if model = "jina-embeddings-v5-text-small" then 1024
  else if model = "gemini-embedding-001" then 3072
  else 8192

def validateDimensions (model : Bytes) (dimensions : Json) : ValidationResult := do
  match dimensions.int? with
  | none => .error "dimensions must be a positive integer"
  | some n =>
    reject (n ≤ 0) "dimensions must be a positive integer"
    reject (n > maxDimensionsFor model) "dimensions exceed the model profile maximum"

def ifPresent (object : Json) (key : Bytes) (check : Json → ValidationResult) : ValidationResult :=
  match object.lookup key with
  | some value => check value
  | none => .ok ()

def validateEmbeddingsRequest (body : Bytes) : ValidationResult := do
  let some document := parseObject rj body | .error "Request body must be a JSON object"
  reject (!hasText document "model") "model must be a non-empty string"
  let some input := document.lookup "input" | .error "input is required"
  validateEmbeddingsInput input
  ifPresent document "encoding_format" fun encoding =>
    reject (encoding.text? ≠ some "float" && encoding.text? ≠ some "base64")
      "encoding_format must be float or base64"
  ifPresent document "dimensions" (validateDimensions ((textAt document "model").getD []))
  ifPresent document "user" fun user => reject (!user.isString) "user must be a string"

def base64Length (dimensions : Nat) : Nat := (dimensions * 4 + 2) / 3 * 4

def validateEmbedding (encoding : Bytes) (dimensions : Int) (embedding : Json) :
    ValidationResult := do
  if encoding = "base64" then
    reject (!isText embedding) "Provider returned a non-base64 embedding"
    reject (dimensions > 0 && embedding.text?.any (·.length ≠ base64Length dimensions.toNat))
      "Provider returned an unexpected base64 embedding dimension"
  else
    let values := embedding.array?.getD []
    reject values.isEmpty "Provider returned a non-float embedding"
    reject (dimensions > 0 && (values.length : Int) ≠ dimensions)
      "Provider returned an unexpected embedding dimension"
    reject (values.any (!·.isNumber)) "Provider returned a non-finite embedding value"

def validateEmbeddingItem (encoding : Bytes) (dimensions : Int) (i : Nat) (item : Json) :
    ValidationResult :=
  match item.lookup "embedding" with
  | none => .error "Provider returned a malformed embedding item"
  | some embedding => do
    reject (intOf item "index" ≠ some (toInt32 i)) "Provider returned a malformed embedding item"
    validateEmbedding encoding dimensions embedding

def validateEmbeddingItems (encoding : Bytes) (dimensions : Int) : Nat → List Json →
    ValidationResult
  | _, [] => .ok ()
  | i, item :: items => do
    validateEmbeddingItem encoding dimensions i item
    validateEmbeddingItems encoding dimensions (i + 1) items

def validateEmbeddingsResponse (requestBody responseBody : Bytes) :
    ValidationResult := do
  let some request := parseObject rj requestBody |
    .error "Embedding request could not be inspected"
  let some input := request.lookup "input" | .error "Embedding request could not be inspected"
  let expectedCount := (input.array?.map List.length).getD 1
  let dimensions := (intOf request "dimensions").getD 0
  let encoding := (textAt request "encoding_format").getD "float"
  let some response := parseObject rj responseBody |
    .error "Provider returned an invalid embeddings JSON object"
  let some data := arrayOf response "data" | .error "Provider embeddings response is missing data"
  reject (data.length ≠ expectedCount) "Provider returned an unexpected embeddings count"
  validateEmbeddingItems encoding dimensions 0 data
  let usage := objectAt response "usage"
  reject (!usage.any fun usage => (intOf usage "prompt_tokens").any (0 < ·)
      && (intOf usage "total_tokens").any (0 < ·))
    "Provider embeddings response is missing positive usage"

def validateGeminiModel (model : Json) : ValidationResult := do
  let methods := (arrayOf model "supportedGenerationMethods").getD []
  reject (!(textAt model "name").any (fun name =>
      name.length > (ascii "models/").length && startsWith name "models/")
      || methods.isEmpty)
    "Provider Gemini model metadata is incomplete"
  reject (methods.any (!isText ·)) "Provider Gemini model methods are malformed"
  reject (!hasPositive model "inputTokenLimit" || !hasPositive model "outputTokenLimit")
    "Provider Gemini model token limits are malformed"

def completeModel (model : Json) : Bool :=
  hasText model "id" && textAt model "object" = some "model" && hasPositive model "created"
    && hasText model "owned_by"

def validateModelList (ids : List Bytes) : List Json → ValidationResult
  | [] => .ok ()
  | model :: models => do
    reject (!completeModel model) "Provider model metadata is incomplete"
    let id := (textAt model "id").getD []
    reject (ids.contains id) "Provider model catalog contains duplicate ids"
    validateModelList (id :: ids) models

def validateModelsResponse (responseBody : Bytes) (format : Format) :
    ValidationResult := do
  let some response := parseObject rj responseBody |
    .error "Provider models response must be a JSON object"
  if format = .gemini then
    match response.lookup "models" with
    | some (.array models) => models.forM validateGeminiModel
    | some _ => .error "Provider Gemini models must be an array"
    | none => validateGeminiModel response
  else
    match arrayOf response "data" with
    | some data =>
      reject (textAt response "object" ≠ some "list")
        "Provider models response must contain a list and data array"
      validateModelList [] data
    | none => .error "Provider models response must contain a list and data array"

def validateCountTokensResponse (responseBody : Bytes) : ValidationResult :=
  let inputTokens := (parseObject rj responseBody).bind (int64Of · "input_tokens")
  reject (!inputTokens.any fun n => 0 < n && n ≤ 1000000000)
    "Provider token-count response must contain a bounded positive input_tokens value"

def consistentUsage (usage : Json) : Bool :=
  match int64Of usage "input_tokens", int64Of usage "output_tokens",
    int64Of usage "total_tokens" with
  | some input, some output, some total => 0 < input && 0 < output && total ≥ input + output
  | _, _, _ => false

def validateResponsesResponse (responseBody : Bytes) : ValidationResult := do
  let some response := parseObject rj responseBody |
    .error "Provider Responses response must be a JSON object"
  reject (!hasText response "id" || textAt response "object" ≠ some "response"
      || textAt response "status" ≠ some "completed" || !hasText response "model")
    "Provider Responses response metadata is incomplete"
  let output := (arrayOf response "output").getD []
  reject output.isEmpty "Provider Responses response is missing output"
  reject (output.any (!hasText · "type")) "Provider Responses output item is malformed"
  let some usage := objectAt response "usage" |
    .error "Provider Responses response is missing usage"
  reject (!consistentUsage usage) "Provider Responses usage is incomplete or inconsistent"

def unquoted (b : Bytes) : Bytes :=
  if 2 ≤ b.length ∧ b.head? = some 34 ∧ b.getLast? = some 34 then (b.drop 1).dropLast else b

def multipartBoundary (contentType : Bytes) : Option Bytes := do
  let marker ← find "boundary=" (lower contentType)
  let rest := (contentType.drop (marker + 9)).dropWhile (· = 32)
  let boundary := unquoted ((rest.takeWhile (· ≠ 59)).rdropWhile (· = 32))
  if boundary.isEmpty || boundary.length > 200 || boundary.contains 13 || boundary.contains 10 then
    none
  else some boundary

def multipartValue (body delimiter fieldName : Bytes) : Nat → Nat → Bytes
  | 0, _ => []
  | rounds + 1, position =>
    match findFrom delimiter position body with
    | none => []
    | some found =>
      let position := found + delimiter.length
      let mark := (body.drop position).take 2
      if mark = "--" then []
      else if mark ≠ "\r\n" then multipartValue body delimiter fieldName rounds position
      else
        match findFrom "\r\n\r\n" (position + 2) body with
        | none => []
        | some headersEnd =>
          let headers := lower ((body.take headersEnd).drop (position + 2))
          match findFrom ("\r\n" ++ delimiter) (headersEnd + 4) body with
          | none => []
          | some next =>
            if contains headers "content-disposition: form-data"
                && contains headers ("name=\"" ++ fieldName ++ "\"") then
              let value := (body.take next).drop (headersEnd + 4)
              if value.length > 1024 then [] else value
            else multipartValue body delimiter fieldName rounds (next + 2)

def extractMultipartField (body contentType fieldName : Bytes) : Bytes :=
  match multipartBoundary contentType with
  | none => []
  | some boundary => multipartValue body ("--" ++ boundary) fieldName (body.length + 1) 0

structure MediaUsageMetadata where
  inputImageCount : Int := 0
  outputImageCount : Int := 0
  imageSize : Bytes := []
  videoCount : Int := 0
  videoResolution : Bytes := []
  videoDurationSeconds : Int := 0
  deriving DecidableEq

def fromChars (text : Bytes) : Option Int :=
  let negative := text.head? = some 45
  let digits := if negative then text.drop 1 else text
  let value : Int := if negative then -digitsValue digits else digitsValue digits
  if digits.isEmpty || !digits.all isDigit || value < -2 ^ 31 || value > maxInt32 then none
  else some value

def countOf (value : Json) : Option Int :=
  if value.isInt then some (max 0 value.getInteger)
  else if value.isUint then some (min value.getInteger maxInt32)
  else (value.text?.bind fromChars).map (max 0)

def positiveInteger (object : Json) (keys : List Bytes) : Int :=
  (keys.findSome? fun key => (object.lookup key).bind countOf).getD 0

def stringMember (object : Json) (keys : List Bytes) : Bytes :=
  (keys.findSome? fun key => (object.lookup key).bind string?).getD []

def multipartInteger (body contentType : Bytes) (fields : List Bytes) : Int :=
  (fields.findSome? fun field =>
    (fromChars (extractMultipartField body contentType field)).map (max 0)).getD 0

def mediaOfOperation (operation : Bytes) : MediaUsageMetadata where
  inputImageCount := if startsWith operation "images_" && contains operation "edits" then 1 else 0
  videoCount := if startsWith operation "videos_" then 1 else 0

def parseMediaRequest (body contentType operation : Bytes) : MediaUsageMetadata :=
  let usage := mediaOfOperation operation
  let images (n : Int) : Int := if startsWith operation "images_" then max 1 n else 0
  if startsWith contentType "multipart/form-data" then
    { usage with
      outputImageCount := images (multipartInteger body contentType ["n"])
      imageSize := extractMultipartField body contentType "size"
      videoResolution := extractMultipartField body contentType "resolution"
      videoDurationSeconds := multipartInteger body contentType ["duration", "duration_seconds"] }
  else
    match parseObject rj body with
    | none => usage
    | some document =>
      { usage with
        outputImageCount := images (positiveInteger document ["n"])
        imageSize := stringMember document ["size"]
        videoResolution := stringMember document ["resolution"]
        videoDurationSeconds := positiveInteger document ["duration", "duration_seconds"] }

def outputImages (document : Json) : Int :=
  match arrayOf document "data" with
  | some data => toInt32 data.length
  | none => positiveInteger document ["output_count", "n"]

def parseMediaResponse (body operation : Bytes) : MediaUsageMetadata :=
  match parseObject rj body with
  | none => {}
  | some document =>
    let usage : MediaUsageMetadata :=
      if startsWith operation "images_" then
        { outputImageCount := outputImages document, imageSize := stringMember document ["size"] }
      else {}
    if startsWith operation "videos_" then
      { usage with
        videoCount := 1
        videoResolution := stringMember document ["resolution"]
        videoDurationSeconds := positiveInteger document ["duration", "duration_seconds"] }
    else usage

end Gateway.Protocol.Converter
