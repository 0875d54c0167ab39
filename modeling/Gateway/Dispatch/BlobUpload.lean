import Gateway.Dispatch.Client

/-! # Uploading a blob -/

namespace Gateway.Dispatch

open Lib List

def kBlobChunkBytes : Nat := 512 * 1024

structure BlobChunk where
  blobId : Bytes
  seq : Nat := 0
  index : UInt32
  data : Bytes
  isLast : Bool
  deriving DecidableEq

structure BlobChunkAck where
  accepted : Bool := false
  errorCode : Bytes := []
  digest : Bytes := []
  totalBytes : Nat := 0
  deriving DecidableEq

def blobAnswer : UInt8 := 0x88

def parseBlobAck (wire : Bytes → BlobChunkAck) : Bytes → Option BlobChunkAck
  | [] => none
  | tag :: message =>
    if message = [] ∨ tag ≠ blobAnswer ∨ message.length % wordSize ≠ 0 then none
    else some (wire message)

section
variable (exchange : BlobChunk → Bytes) (wire : Bytes → BlobChunkAck) (blobId body : Bytes)

def chunkSize (offset : Nat) : Nat := min kBlobChunkBytes (body.length - offset)

def chunkAt (offset : Nat) (index : UInt32) : BlobChunk where
  blobId
  index
  data := (body.drop offset).take (chunkSize body offset)
  isLast := offset + chunkSize body offset ≥ body.length

def uploadLoop (offset : Nat) (index : UInt32) (sent : List BlobChunk) (result : BlobUploadResult) :
    BlobUploadResult × List BlobChunk :=
  if _h : offset < body.length ∨ index = 0 then
    let chunk := chunkAt blobId body offset index
    match parseBlobAck wire (exchange chunk) with
    | none => ({ result with errorCode := "platform_unavailable" }, sent ++ [chunk])
    | some ack =>
      if ack.accepted then
        uploadLoop (offset + chunkSize body offset) (index + 1) (sent ++ [chunk])
          { result with digest := ack.digest, totalBytes := ack.totalBytes }
      else ({ result with errorCode := ack.errorCode }, sent ++ [chunk])
  else ({ result with accepted := true }, sent)
termination_by 2 * (body.length - offset) + (if index = 0 then 1 else 0)
decreasing_by
  simp only [chunkSize, kBlobChunkBytes]
  rcases Nat.lt_or_ge offset body.length with hlt | hge
  · split <;> split <;> omega
  · have h0 : index = 0 := _h.resolve_left (by omega)
    subst h0
    have h1 : ¬ (0 + 1 : UInt32) = 0 := by decide
    rw [if_neg h1, if_pos rfl]; omega

def uploadBlob : BlobUploadResult × List BlobChunk :=
  uploadLoop exchange wire blobId body 0 0 [] { blobId }

end

section
variable (exchange : BlobChunk → Bytes) (wire : Bytes → BlobChunkAck) (blobId body : Bytes)

def Accepts (chunk : BlobChunk) : Prop :=
  ∃ ack, parseBlobAck wire (exchange chunk) = some ack ∧ ack.accepted = true

structure FaithfulUpload (result : BlobUploadResult) (sent : List BlobChunk) : Prop where
  ordered : sent.map (·.index.toNat) = range sent.length
  bounded : ∀ chunk ∈ sent, chunk.data.length ≤ 524288
  initial : sent.flatMap (·.data) <+: body
  single : body = [] → ∃ chunk, sent = [chunk] ∧ chunk.data = [] ∧ chunk.isLast = true
  accepted_iff : result.accepted = true ↔
    sent.flatMap (·.data) = body ∧ (∀ chunk ∈ sent, Accepts exchange wire chunk) ∧
      ∃ front last, sent = front ++ [last] ∧ last.isLast = true ∧
        ∀ chunk ∈ front, chunk.isLast = false
  stops : result.accepted = false → ∃ front last, sent = front ++ [last] ∧
    (∀ chunk ∈ front, Accepts exchange wire chunk) ∧ ¬ Accepts exchange wire last

structure Sending (offset : Nat) (index : UInt32) (sent : List BlobChunk) : Prop where
  offset_eq : offset = sent.length * kBlobChunkBytes
  more : offset < body.length ∨ sent = []
  inside : offset ≤ body.length
  index_eq : index.toNat = sent.length
  ordered : sent.map (·.index.toNat) = range sent.length
  bounded : ∀ chunk ∈ sent, chunk.data.length ≤ 524288
  data : sent.flatMap (·.data) = body.take offset
  accepted : ∀ chunk ∈ sent, Accepts exchange wire chunk
  unmarked : ∀ chunk ∈ sent, chunk.isLast = false

variable {exchange wire body} {offset : Nat} {index : UInt32} {sent : List BlobChunk}
  {result : BlobUploadResult}

section

variable (h : Sending exchange wire body offset index sent)

include h

theorem Sending.next :
    let chunks := sent ++ [chunkAt blobId body offset index]
    chunks.map (·.index.toNat) = range chunks.length ∧
      (∀ chunk ∈ chunks, chunk.data.length ≤ 524288) ∧
      chunks.flatMap (·.data) = body.take (offset + chunkSize body offset) := by
  refine ⟨?_, ?_, ?_⟩
  · simp [range_succ, h.ordered, chunkAt, h.index_eq]
  · refine forall_mem_append.2 ⟨h.bounded, forall_mem_singleton.2 ?_⟩
    simp only [chunkAt, length_take, chunkSize, kBlobChunkBytes]; omega
  · simp [h.data, chunkAt, take_add]

theorem Sending.single (hempty : body = []) :
    ∃ chunk, sent ++ [chunkAt blobId body offset index] = [chunk] ∧ chunk.data = [] ∧
      chunk.isLast = true := by
  subst hempty
  have hfirst : sent = [] := h.more.resolve_left (Nat.not_lt_zero _)
  refine ⟨_, by rw [hfirst, nil_append], ?_, ?_⟩ <;> simp [chunkAt]

theorem Sending.refused (hr : result.accepted = false)
    (hn : ¬ Accepts exchange wire (chunkAt blobId body offset index)) :
    FaithfulUpload exchange wire body result (sent ++ [chunkAt blobId body offset index]) := by
  obtain ⟨hor, hbd, hda⟩ := h.next blobId
  refine ⟨hor, hbd, by rw [hda]; exact take_prefix _ _, h.single blobId, ?_,
    fun _ => ⟨sent, _, rfl, h.accepted, hn⟩⟩
  rw [hr]
  exact iff_of_false Bool.false_ne_true fun ⟨_, hal, _⟩ => hn (hal _ (by simp))

theorem Sending.finished (ha : Accepts exchange wire (chunkAt blobId body offset index))
    (hen : body.length ≤ offset + chunkSize body offset) :
    FaithfulUpload exchange wire body { result with accepted := true }
      (sent ++ [chunkAt blobId body offset index]) := by
  obtain ⟨hor, hbd, hda⟩ := h.next blobId
  rw [take_of_length_le hen] at hda
  refine ⟨hor, hbd, by rw [hda], h.single blobId, iff_of_true rfl ⟨hda, ?_, ?_⟩,
    fun hf => by cases hf⟩
  · exact forall_mem_append.2 ⟨h.accepted, forall_mem_singleton.2 ha⟩
  · exact ⟨sent, _, rfl, by simp [chunkAt, hen], h.unmarked⟩

theorem Sending.index_succ (hle : body.length < 2 ^ 50) : (index + 1).toNat = sent.length + 1 := by
  have hof := h.offset_eq
  have hin := h.inside
  simp only [kBlobChunkBytes] at hof
  rw [UInt32.toNat_add, h.index_eq, UInt32.toNat_one, Nat.mod_eq_of_lt (by omega)]

theorem Sending.advance (hle : body.length < 2 ^ 50)
    (ha : Accepts exchange wire (chunkAt blobId body offset index))
    (hmi : offset + chunkSize body offset < body.length) :
    Sending exchange wire body (offset + chunkSize body offset) (index + 1)
      (sent ++ [chunkAt blobId body offset index]) := by
  obtain ⟨hor, hbd, hda⟩ := h.next blobId
  have hfu : chunkSize body offset = kBlobChunkBytes := by
    simp only [chunkSize] at hmi ⊢
    omega
  refine ⟨?_, .inl hmi, hmi.le, ?_, hor, hbd, hda, ?_, ?_⟩
  · rw [hfu, h.offset_eq, length_append, length_singleton, Nat.add_mul, Nat.one_mul]
  · rw [h.index_succ hle, length_append, length_singleton]
  · exact forall_mem_append.2 ⟨h.accepted, forall_mem_singleton.2 ha⟩
  · have hla : (chunkAt blobId body offset index).isLast = false := by simp [chunkAt, hmi]
    exact forall_mem_append.2 ⟨h.unmarked, forall_mem_singleton.2 hla⟩

end

theorem uploadLoop_faithful (hle : body.length < 2 ^ 50) (hr : result.accepted = false)
    (h : Sending exchange wire body offset index sent) :
    let sending := uploadLoop exchange wire blobId body offset index sent result
    FaithfulUpload exchange wire body sending.1 sending.2 := by
  intro sending
  simp only [sending]
  fun_induction uploadLoop exchange wire blobId body offset index sent result with
  | case1 offset index sent result hgo chunk hno =>
    refine h.refused blobId hr fun ⟨ack, hack, _⟩ => ?_
    cases hno.symm.trans hack
  | case2 offset index sent result hgo chunk ack hack hacc ih =>
    have ha : Accepts exchange wire chunk := ⟨ack, hack, hacc⟩
    rcases Nat.lt_or_ge (offset + chunkSize body offset) body.length with hmi | hen
    · exact ih hr (h.advance blobId hle ha hmi)
    · have hst : ¬ (offset + chunkSize body offset < body.length ∨ index + 1 = 0) := by
        rintro (hlt | hze)
        · omega
        · have hnu := h.index_succ hle
          rw [hze, UInt32.toNat_zero] at hnu; omega
      rw [uploadLoop, dif_neg hst]; exact h.finished blobId ha hen
  | case3 offset index sent result hgo chunk ack hack hacc =>
    refine h.refused blobId hr fun ⟨ack', hack', hye⟩ => hacc ?_
    rwa [Option.some.inj (hack.symm.trans hack')]
  | case4 offset index sent result hgo =>
    refine absurd (h.more.imp id fun hni => ?_) hgo
    exact UInt32.toNat_inj.1 (by rw [h.index_eq, hni]; rfl)

theorem upload_blob_faithful (exchange : BlobChunk → Bytes) (wire : Bytes → BlobChunkAck)
    (blobId body : Bytes) (hlen : body.length < 2 ^ 50) :
    FaithfulUpload exchange wire body (uploadBlob exchange wire blobId body).1
      (uploadBlob exchange wire blobId body).2 :=
  uploadLoop_faithful blobId hlen rfl
    ⟨rfl, .inr rfl, Nat.zero_le _, rfl, rfl, by simp, rfl, by simp, by simp⟩

theorem FaithfulUpload.accepted_of_accepts (h : FaithfulUpload exchange wire body result sent)
    (hall : ∀ chunk, Accepts exchange wire chunk) : result.accepted = true := by
  by_contra hrefused
  obtain ⟨_, last, -, -, hlast⟩ := h.stops (by simpa using hrefused)
  exact hlast (hall last)

theorem FaithfulUpload.several (h : FaithfulUpload exchange wire body result sent)
    (haccepted : result.accepted = true) (hlong : 524288 < body.length) : 1 < sent.length := by
  obtain ⟨hbody, -, -⟩ := h.accepted_iff.1 haccepted
  match sent with
  | [] => simp [← hbody] at hlong
  | [chunk] =>
    have hsize := h.bounded chunk mem_cons_self
    rw [flatMap_singleton] at hbody
    rw [hbody] at hsize; omega
  | _ :: _ :: _ => simp

def acceptingExchange : BlobChunk → Bytes := fun _ => 0x88 :: replicate 8 0

def acceptingWire : Bytes → BlobChunkAck := fun _ => { accepted := true }

def longBody : Bytes := replicate 524289 7

theorem length_longBody : longBody.length = 524289 := length_replicate

theorem upload_blob_faithful_accepted :
    let upload := uploadBlob acceptingExchange acceptingWire (ascii "b1") longBody
    FaithfulUpload acceptingExchange acceptingWire longBody upload.1 upload.2 ∧
      upload.1.accepted = true ∧ 1 < upload.2.length := by
  have hfaithful := upload_blob_faithful acceptingExchange acceptingWire (ascii "b1") longBody
    (by rw [length_longBody]; decide)
  have haccepted := hfaithful.accepted_of_accepts fun _ => ⟨{ accepted := true }, rfl, rfl⟩
  exact ⟨hfaithful, haccepted, hfaithful.several haccepted (by rw [length_longBody]; decide)⟩

end

end Gateway.Dispatch
