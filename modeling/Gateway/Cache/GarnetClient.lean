import Gateway.Lib.Delimiters

/-! # The Garnet client -/

namespace Gateway.Cache

open Lib
open List hiding contains

variable (connection : Connection)

def lineEnd : Bytes := [13, 10]

def atoll (text : Bytes) : Int :=
  match text.dropWhile isSpace with
  | 45 :: digits => -(digitsValue (digits.takeWhile isDigit) : Int)
  | 43 :: digits => digitsValue (digits.takeWhile isDigit)
  | digits => digitsValue (digits.takeWhile isDigit)

def fill (enough : Bytes → Bool) : List Bytes → Bytes → Option (Bytes × List Bytes)
  | [], accum => if enough accum then some (accum, []) else none
  | chunk :: reads, accum =>
    if enough accum then some (accum, chunk :: reads)
    else if chunk = [] then none
    else fill enough reads (accum ++ chunk)

def fillUntil (need : Nat) : List Bytes → Bytes → Option (Bytes × List Bytes) :=
  fill fun accum => need ≤ accum.length

def fillUntilCrlf : List Bytes → Bytes → Option (Bytes × List Bytes) :=
  fill fun accum => contains accum lineEnd

def announced (accum : Bytes) (crlf : Nat) : Int := atoll ((accum.drop 1).take (crlf - 1))

def readResponse (reads : List Bytes) : Bytes :=
  match fillUntilCrlf reads [] with
  | none => []
  | some (accum, reads) =>
    match find lineEnd accum with
    | none => []
    | some crlf =>
      if accum.head? = some 36 then
        if announced accum crlf < 0 then ascii "$-1\r\n"
        else
          let totalNeeded := crlf + 2 + (announced accum crlf).toNat + 2
          match fillUntil totalNeeded reads accum with
          | none => []
          | some (accum, _) => accum.take totalNeeded
      else accum.take (crlf + 2)

abbrev Connection := Nat → Bytes → Option (List Bytes)

def attempt (command : Bytes) (number : Nat) : Bytes :=
  match connection number command with
  | none => []
  | some reads => readResponse reads

def execute (command : Bytes) : Bytes :=
  let response := attempt connection command 0
  if response ≠ [] then response else attempt connection command 1

structure GarnetResponse where
  found : Bool := false
  error : Bool := false
  value : Bytes := []
  deriving DecidableEq

def getCommand (key : Bytes) : Bytes :=
  ascii "*2\r\n$3\r\nGET\r\n$" ++ decimal key.length ++ lineEnd ++ key ++ lineEnd

def parseGet (raw : Bytes) : GarnetResponse :=
  if raw = [] then { error := true }
  else if raw.head? = some 36 then
    if 3 ≤ raw.length ∧ raw[1]? = some 45 then {}
    else
      match find lineEnd raw with
      | none => { error := true }
      | some crlf =>
        let data := raw.drop (crlf + 2)
        { found := true
          value := if endsWith data lineEnd then data.take (data.length - 2) else data }
  else { error := true }

def get (key : Bytes) : GarnetResponse :=
  parseGet (execute connection (getCommand key))

def received : List Bytes → Bytes
  | [] => []
  | chunk :: reads => if chunk = [] then [] else chunk ++ received reads

theorem received_eq_flatten {reads : List Bytes} (h : ∀ chunk ∈ reads, chunk ≠ []) :
    received reads = reads.flatten := by
  induction reads with
  | nil => rfl
  | cons chunk reads ih =>
    rw [received, if_neg (h _ mem_cons_self), flatten_cons,
      ih fun c hc => h c (mem_cons_of_mem _ hc)]

theorem fill_spec (enough : Bytes → Bool) (reads : List Bytes) (accum : Bytes) :
    match fill enough reads accum with
    | none => enough (accum ++ received reads) = false
    | some (accum', reads') =>
      enough accum' ∧ accum' ++ received reads' = accum ++ received reads := by
  induction reads generalizing accum with
  | nil =>
    cases he : enough accum <;> simp [fill, received, he]
  | cons chunk reads ih =>
    cases he : enough accum with
    | true => simp [fill, he]
    | false =>
      by_cases hc : chunk = []
      · simp [fill, received, he, hc]
      · simpa [fill, received, he, hc] using ih (accum ++ chunk)

def response (b : Bytes) : Bytes :=
  match find lineEnd b with
  | none => []
  | some crlf =>
    if b.head? = some 36 then
      if announced b crlf < 0 then ascii "$-1\r\n"
      else
        let totalNeeded := crlf + 2 + (announced b crlf).toNat + 2
        if b.length < totalNeeded then [] else b.take totalNeeded
    else b.take (crlf + 2)

theorem header_append {b : Bytes} {crlf : Nat} (h : find lineEnd b = some crlf) (x : Bytes) :
    find lineEnd (b ++ x) = some crlf ∧ (b ++ x).head? = b.head? ∧
      announced (b ++ x) crlf = announced b crlf := by
  have hle : crlf + 2 ≤ b.length := find_add_length_le h
  refine ⟨find_append_of_some h x, ?_, ?_⟩
  · rw [head?_append_of_ne_nil _ (ne_nil_of_length_pos (by omega))]
  · rw [announced, drop_append_of_le_length (by omega), take_append_of_le_length]
    · rfl
    · rw [length_drop]; omega

theorem readResponse_eq (reads : List Bytes) : readResponse reads = response (received reads) := by
  have hli := fill_spec (fun accum => contains accum lineEnd) reads []
  unfold readResponse fillUntilCrlf
  split at hli
  next hfil =>
    have hno : find lineEnd (received reads) = none := by simpa [contains] using hli
    simp [response, hno]
  next accum rest hfil =>
    obtain ⟨hha, hal⟩ := hli
    obtain ⟨crlf, hcr⟩ := Option.isSome_iff_exists.1 hha
    obtain ⟨hfi, hhe, han⟩ := header_append hcr (received rest)
    rw [hal, nil_append] at hfi hhe han
    have hle : crlf + 2 ≤ accum.length := find_add_length_le hcr
    have hfill := fill_spec
      (fun accum' => crlf + 2 + (announced accum crlf).toNat + 2 ≤ accum'.length) rest accum
    simp only [hcr, response, hfi, hhe, han, fillUntil]
    split
    · split
      · rfl
      · split at hfill
        next =>
          rw [hal, nil_append, decide_eq_false_iff_not, Nat.not_le] at hfill
          simp [hfill]
        next accum' rest' _ =>
          obtain ⟨hne, hsa⟩ := hfill
          rw [decide_eq_true_eq] at hne
          rw [hal, nil_append] at hsa
          rw [← hsa, if_neg (by rw [length_append]; omega), take_append_of_le_length hne]
    · rw [← nil_append (received reads), ← hal, take_append_of_le_length hle]

theorem atoll_of_digits {text : Bytes} (h : ∀ c ∈ text, isDigit c) :
    atoll text = digitsValue text := by
  have hta : text.takeWhile isDigit = text := takeWhile_eq_self_iff.2 h
  have hdr : text.dropWhile isSpace = text := by
    refine dropWhile_eq_self_iff.2 fun hpo => ?_
    have hc := h _ (getElem_mem hpo)
    simp only [isDigit, isSpace, Bool.and_eq_true, Bool.or_eq_true, decide_eq_true_eq,
      UInt8.le_iff_toNat_le, ← UInt8.toNat_inj] at hc ⊢
    simp at hc ⊢
    omega
  rw [atoll, hdr]
  split
  next digits => cases h 45 mem_cons_self
  next digits => cases h 43 mem_cons_self
  next => rw [hta]

inductive Reply
  | bulk (value : Bytes)
  | nil
  | line (text : Bytes) (single : contains text lineEnd = false) (plain : text.head? ≠ some 36)

namespace Reply

def bytes : Reply → Bytes
  | bulk value => ascii "$" ++ decimal value.length ++ lineEnd ++ value ++ lineEnd
  | nil => ascii "$-1" ++ lineEnd
  | line text _ _ => text ++ lineEnd

def meaning : Reply → GarnetResponse
  | bulk value => { found := true, value }
  | nil => {}
  | line .. => { error := true }

theorem bytes_bulk (value : Bytes) :
    (bulk value).bytes = (36 :: decimal value.length) ++ lineEnd ++ (value ++ lineEnd) := by
  simp [bytes, ascii]

variable (r : Reply)

theorem header : ∃ crlf, find lineEnd r.bytes = some crlf ∧ match r with
    | bulk value => r.bytes.head? = some 36 ∧ announced r.bytes crlf = value.length ∧
        r.bytes.length = crlf + 2 + value.length + 2 ∧ r.bytes.drop (crlf + 2) = value ++ lineEnd
    | nil => r.bytes.head? = some 36 ∧ announced r.bytes crlf < 0 ∧ r.bytes.length = crlf + 2
    | line .. => r.bytes.head? ≠ some 36 ∧ r.bytes.length = crlf + 2 := by
  cases r with
  | bulk value =>
    refine ⟨(36 :: decimal value.length).length, ?_, rfl, ?_, ?_, ?_⟩
    · have hno : 13 ∉ 36 :: decimal value.length := by
        rintro (_ | ⟨_, hm⟩)
        cases isDigit_of_mem_decimal hm
      rw [bytes_bulk]
      refine find_append_delimiter (by decide) ?_ _
      rw [contains, lineEnd, find_eq_none_of_not_mem hno, Option.isSome_none]
    · rw [bytes_bulk, announced, append_assoc, cons_append, drop_one, tail_cons,
        length_cons, Nat.add_sub_cancel, take_left,
        atoll_of_digits fun _ => isDigit_of_mem_decimal, digitsValue_decimal]
    · simp [bytes_bulk, lineEnd]; omega
    · rw [bytes_bulk]; exact drop_left' (by simp [lineEnd])
  | nil => exact ⟨3, rfl, rfl, by decide, rfl⟩
  | line text single plain =>
    refine ⟨text.length, ?_, ?_, by simp [bytes, lineEnd]⟩
    · simpa [bytes] using find_append_delimiter (by decide) single []
    · cases text with
      | nil => exact fun h => by cases h
      | cons c text => simpa [bytes] using plain

theorem bytes_ne_nil : r.bytes ≠ [] := by
  cases r <;> simp [bytes, lineEnd, ascii]

theorem response_bytes : response r.bytes = r.bytes := by
  obtain ⟨crlf, hfi, h⟩ := r.header
  cases r with
  | bulk value =>
    obtain ⟨hhe, han, hle, -⟩ := h
    have hpo : ¬ (value.length : Int) < 0 := by omega
    simp only [response, hfi, hhe, han, hpo, Int.toNat_natCast, ← hle]; simp
  | nil => obtain ⟨hhe, han, hle⟩ := h; simp [response, hfi, hhe, han]; rfl
  | line text single plain => obtain ⟨hhe, hle⟩ := h; simp [response, hfi, hhe, ← hle]

theorem response_of_proper {r : Reply} {b : Bytes} (hpr : b <+: r.bytes) (hne : b ≠ r.bytes) :
    response b = [] := by
  have hsh : b.length < r.bytes.length :=
    lt_of_le_of_ne hpr.length_le fun h => hne (hpr.eq_of_length h)
  obtain ⟨x, hx⟩ := hpr
  cases hcr : find lineEnd b with
  | none => simp [response, hcr]
  | some crlf =>
    have hin : crlf + 2 ≤ b.length := find_add_length_le hcr
    obtain ⟨hfi, hhe, han⟩ := header_append hcr x
    rw [hx] at hfi hhe han
    obtain ⟨crlf', hfi', h⟩ := r.header
    obtain rfl : crlf = crlf' := Option.some.inj (hfi.symm.trans hfi')
    rw [hhe] at h
    cases r with
    | bulk value =>
      obtain ⟨hhe', han', hle, -⟩ := h
      have hpo : ¬ (value.length : Int) < 0 := by omega
      simp only [response, hcr, hhe', ← han, han', hpo, Int.toNat_natCast, ← hle, hsh]
      simp
    | nil => omega
    | line text single plain => omega

theorem parseGet_bytes : parseGet r.bytes = r.meaning := by
  obtain ⟨crlf, hfi, h⟩ := r.header
  cases r with
  | bulk value =>
    obtain ⟨hhe, -, -, hda⟩ := h
    have hsi : (bulk value).bytes[1]? ≠ some 45 := by
      intro hc
      obtain ⟨c, digits, hd⟩ := exists_cons_of_ne_nil (decimal_ne_nil value.length)
      rw [bytes_bulk, hd] at hc
      obtain rfl : c = 45 := Option.some.inj hc
      cases isDigit_of_mem_decimal (hd ▸ mem_cons_self)
    simp only [parseGet, bytes_ne_nil, hhe, hsi, hfi, hda]
    simp [endsWith, meaning, lineEnd]
  | nil => rfl
  | line text single plain => simp [parseGet, bytes_ne_nil, h.1, meaning]

end Reply

section
variable (connection : Connection) (command : Bytes) (number : Nat)

def Delivers (r : Reply) : Prop :=
  ∃ reads, connection number command = some reads ∧ (∀ chunk ∈ reads, chunk ≠ []) ∧
    reads.flatten = r.bytes

def Breaks : Prop :=
  ∀ reads ∈ connection number command,
    ∃ r : Reply, received reads <+: r.bytes ∧ received reads ≠ r.bytes

variable {connection command number}

theorem Delivers.attempt_eq {r : Reply} (h : Delivers connection command number r) :
    attempt connection command number = r.bytes := by
  obtain ⟨reads, hre, hne, hal⟩ := h
  rw [attempt, hre]
  show readResponse reads = r.bytes
  rw [readResponse_eq, received_eq_flatten hne, hal, r.response_bytes]

theorem Breaks.attempt_eq (h : Breaks connection command number) :
    attempt connection command number = [] := by
  unfold attempt
  split
  · rfl
  next reads hre =>
    obtain ⟨r, hpr, hne⟩ := h reads hre
    rw [readResponse_eq, Reply.response_of_proper hpr hne]

end

theorem garnet_get_decodes (connection : Connection) (key : Bytes) :
    (∀ r, Delivers connection (getCommand key) 0 r → get connection key = r.meaning) ∧
    (∀ r, Breaks connection (getCommand key) 0 → Delivers connection (getCommand key) 1 r →
      get connection key = r.meaning) ∧
    (Breaks connection (getCommand key) 0 → Breaks connection (getCommand key) 1 →
      get connection key = { error := true }) := by
  refine ⟨fun r hr => ?_, fun r hb hr => ?_, fun hb hb' => ?_⟩
  · rw [get, execute, hr.attempt_eq, if_pos r.bytes_ne_nil, r.parseGet_bytes]
  · rw [get, execute, hb.attempt_eq, if_neg (by simp), hr.attempt_eq, r.parseGet_bytes]
  · rw [get, execute, hb.attempt_eq, if_neg (by simp), hb'.attempt_eq]; rfl

theorem garnet_get_decodes_split :
    get (fun _ _ => some [ascii "$3\r", ascii "\na\r\n", lineEnd]) (ascii "k") =
      { found := true, value := ascii "a\r\n" } :=
  (garnet_get_decodes _ _).1 (.bulk (ascii "a\r\n")) ⟨_, rfl, by decide, by decide⟩

inductive Command
  | get (key : Bytes)
  | auth (password : Bytes)
  | ping

def Command.bytes : Command → Bytes
  | .get key => getCommand key
  | .auth password =>
    ascii "*2\r\n$4\r\nAUTH\r\n$" ++ decimal password.length ++ lineEnd ++ password ++ lineEnd
  | .ping => "*1\r\n$4\r\nPING\r\n"

def ping (connection : Connection) : Bool :=
  startsWith (execute connection Command.ping.bytes) "+PONG"

def sendCommand : List Nat → Bytes → Bytes × Bool
  | [], command => ([], command.isEmpty)
  | taken :: writes, command =>
    if command = [] then ([], true)
    else if taken = 0 then ([], false)
    else
      let (sent, whole) := sendCommand writes (command.drop taken)
      (command.take taken ++ sent, whole)

def carried : List (List Nat × Command) → Bytes × List Command
  | [] => ([], [])
  | (writes, c) :: sends =>
    let (sent, whole) := sendCommand writes c.bytes
    if whole then (sent ++ (carried sends).1, c :: (carried sends).2) else (sent, [])

theorem sendCommand_spec (writes : List Nat) (command : Bytes) :
    ∃ left, (sendCommand writes command).1 ++ left = command ∧
      ((sendCommand writes command).2 = true ↔ left = []) := by
  induction writes generalizing command with
  | nil => exact ⟨command, rfl, isEmpty_iff⟩
  | cons taken writes ih =>
    rw [sendCommand]
    split
    next hc => exact ⟨[], hc.symm, by simp⟩
    split
    next hc _ => exact ⟨command, rfl, by simp [hc]⟩
    obtain ⟨left, hl, hw⟩ := ih (command.drop taken)
    exact ⟨left, by rw [append_assoc, hl, take_append_drop], hw⟩

theorem bulk_append_inj {a b x y : Bytes}
    (h : decimal a.length ++ (lineEnd ++ (a ++ (lineEnd ++ x))) =
      decimal b.length ++ (lineEnd ++ (b ++ (lineEnd ++ y)))) : a = b ∧ x = y := by
  have hcut (n : Nat) (z : Bytes) : find [13] (decimal n ++ (lineEnd ++ z)) =
      some (decimal n).length := by
    rw [find_append_of_not_mem fun hm => by cases isDigit_of_mem_decimal hm]
    simp [lineEnd, find]
  have hd := hcut a.length (a ++ (lineEnd ++ x))
  rw [h, hcut, Option.some.injEq] at hd
  obtain ⟨hab, hr⟩ := append_inj h hd.symm
  obtain ⟨rfl, he⟩ := append_inj (append_cancel_left hr) (decimal_injective hab)
  exact ⟨rfl, append_cancel_left he⟩

theorem Command.bytes_append_inj {c d : Command} {x y : Bytes} (h : c.bytes ++ x = d.bytes ++ y) :
    c = d ∧ x = y := by
  cases c <;> cases d <;> try cases congrArg (fun b => (b.take 6).map UInt8.toNat) h
  case ping.ping => exact ⟨rfl, append_cancel_left h⟩
  all_goals
    simp only [bytes, getCommand, append_assoc, append_cancel_left_eq] at h
    exact (bulk_append_inj h).imp_left (congrArg _)

theorem carried_cases (sends : List (List Nat × Command)) : ∃ (c : Command) (left : Bytes),
    carried sends = (c.bytes ++ (carried sends.tail).1, c :: (carried sends.tail).2) ∨
      left ≠ [] ∧ (carried sends).1 ++ left = c.bytes ∧ (carried sends).2 = [] := by
  cases sends with
  | nil => exact ⟨.ping, Command.ping.bytes, .inr ⟨by decide, rfl, rfl⟩⟩
  | cons send sends =>
    obtain ⟨writes, c⟩ := send
    obtain ⟨left, hl, hw⟩ := sendCommand_spec writes c.bytes
    refine ⟨c, left, ?_⟩
    by_cases hn : left = []
    · rw [hn, append_nil] at hl; simp [carried, hw.2 hn, hl]
    · have hf : (sendCommand writes c.bytes).2 = false := by simpa using mt hw.1 hn
      simp [carried, hf, hl, hn]

/-- Whatever the keys and passwords contain and however the writes are cut, what a connection
carries tells which commands were sent whole, and in which order. -/
theorem commands_decodable : ∃ decode : Bytes → List Command,
    ∀ sends, decode (carried sends).1 = (carried sends).2 := by
  suffices h : ∀ s t, (carried s).1 = (carried t).1 → (carried s).2 = (carried t).2 from
    ⟨Function.extend (carried · |>.1) (carried · |>.2) fun _ => [],
      fun sends => Function.FactorsThrough.extend_apply (fun s t => h s t) _ sends⟩
  have hcut {c d : Command} {x y left : Bytes} (hn : left ≠ []) (hx : x = c.bytes ++ y)
      (hd : x ++ left = d.bytes) : False := by
    rw [hx, append_assoc, ← append_nil d.bytes] at hd
    exact hn (append_eq_nil_iff.1 (Command.bytes_append_inj hd).2).2
  intro s
  induction s with
  | nil =>
    intro t h
    obtain ⟨c, left, ht | ⟨-, -, ht⟩⟩ := carried_cases t
    · rw [ht] at h; exact (hcut (d := .ping) (by decide) h rfl).elim
    · exact ht.symm
  | cons send s ih =>
    intro t h
    obtain ⟨c, left, hs | ⟨hn, hs, hds⟩⟩ := carried_cases (send :: s) <;>
      obtain ⟨d, left', ht | ⟨hn', ht, hdt⟩⟩ := carried_cases t
    · rw [hs, ht] at h ⊢; obtain ⟨rfl, hr⟩ := Command.bytes_append_inj h; rw [← ih _ hr]; rfl
    · rw [hs] at h; exact (hcut hn' h.symm ht).elim
    · rw [ht] at h; exact (hcut hn h hs).elim
    · rw [hds, hdt]

end Gateway.Cache
