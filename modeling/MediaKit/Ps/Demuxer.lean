import Mathlib.Data.List.GetD
import MediaKit.Gb28181.RtpServer
import MediaKit.Lib.Reader

/-!
# The program stream demuxer

`crates/codec/src/ps.rs`: `PsDemuxer` collects the bytes of a program stream and takes PES
packets off their front. `next_pes` strips headers, looks for one packet, and on an error
moves on to the next start code, or drops everything when there is none.

A caller asks `next_pes` until it has nothing more. The rounds of its loop are the attempts
of a reader (`psNext`), and asking until nothing more comes is the reader's loop
(`drainPes_eq_feed`); all that follows is about that reader.

Mirroring notes vs the Rust source:
  * Positions in the buffer are what is left from them on; where a round takes more than
    one byte, the length bounds the rounds.
  * The map of stream types is an association list, the latest entry first.
-/

namespace MediaKit.Ps

open Lib Gb28181 List Option

/-! ## Start codes and headers -/

def isPsEntity (id : UInt8) : Bool := 0xB9 ≤ id

/-- The scan of `find_start_code` over the bytes that stand at `i`. -/
def scanStartCode : Nat → Nat → Bytes → Option Nat
  | 0, _, _ => none
  | fuel + 1, i, data =>
    if data.length < 4 then none
    else if data.take 3 = [0, 0, 1] then
      if isPsEntity (data.getD 3 0) then some i else scanStartCode fuel (i + 4) (data.drop 4)
    else if 5 ≤ data.length ∧ data.take 4 = [0, 0, 0, 1] ∧ isPsEntity (data.getD 4 0) then some i
    else scanStartCode fuel (i + 1) (data.drop 1)

/-- `find_start_code`: the next start code of a pack header, system header, map or packet. -/
def findStartCode (data : Bytes) (start : Nat) : Option Nat :=
  scanStartCode data.length start (data.drop start)

/-- The bytes begin with a start code, of whatever kind. -/
def StartsCode (data : Bytes) : Prop := 4 ≤ data.length ∧ data.take 3 = [0, 0, 1]

instance (data : Bytes) : Decidable (StartsCode data) := inferInstanceAs (Decidable (_ ∧ _))

/-- `leading_header_len`: the length of a complete pack header, system header or map. -/
def leadingHeaderLen (data : Bytes) : Option Nat :=
  if ¬ StartsCode data then none
  else
    let id := data.getD 3 0
    if id = 0xBA then
      if data.length < 14 then none
      else
        let stuff := (data.getD 13 0 &&& 0x07).toNat
        if data.length < 14 + stuff then none else some (14 + stuff)
    else if id = 0xBB ∨ id = 0xBC then
      if data.length < 6 then none
      else
        let len := ofBe ((data.drop 4).take 2)
        if data.length < 6 + len then none else some (6 + len)
    else none

/-- The entries of a program stream map, up to its checksum. -/
def mapEntries : Nat → Bytes → List (UInt8 × UInt8)
  | 0, _ => []
  | fuel + 1, data =>
    if data.length < 4 then []
    else
      let infoLength := ofBe ((data.drop 2).take 2) % 0x1000
      (data.getD 1 0, data.getD 0 0) :: mapEntries fuel (data.drop (4 + infoLength))

/-- `parse_program_stream_map`: stream ids with their types. -/
def parseProgramStreamMap (data : Bytes) : List (UInt8 × UInt8) :=
  if data.length < 16 ∨ data.take 4 ≠ [0, 0, 1, 0xBC] then []
  else
    let mapLength := ofBe ((data.drop 4).take 2)
    let mapEnd := min (6 + mapLength) data.length
    let programInfoLength := ofBe ((data.drop 8).take 2)
    let lengthOffset := 10 + programInfoLength
    if mapEnd < lengthOffset + 2 then []
    else
      let elementaryLength := ofBe ((data.drop lengthOffset).take 2)
      let offset := lengthOffset + 2
      let elementaryEnd := min (offset + elementaryLength) (mapEnd - 4)
      mapEntries data.length ((data.take elementaryEnd).drop offset)

/-! ## Packets -/

inductive PsError where
  | incomplete | invalidStartCode | invalidPesHeader
  deriving DecidableEq

/-- The PTS of a PES header, from the five bytes behind its first nine. -/
def readPts (data : Bytes) : UInt64 :=
  let b := fun i => (data.getD (9 + i) 0).toUInt64
  ((b 0 &&& 0x0E) <<< 29) ||| ((b 1 &&& 0xFF) <<< 22) ||| ((b 2 &&& 0xFE) <<< 14) |||
    ((b 3 &&& 0xFF) <<< 7) ||| ((b 4 &&& 0xFE) >>> 1)

/-- `parse_pes_packet`: the packet and its length, if it is complete. -/
def parsePesPacket (data : Bytes) : Except PsError (Option (PesPacket × Nat)) :=
  if data.length < 9 then .ok none
  else
    let streamId := data.getD 3 0
    let pesPacketLen := ofBe ((data.drop 4).take 2)
    if pesPacketLen ≠ 0 ∧ data.length < 6 + pesPacketLen then .ok none
    else if data.getD 6 0 &&& 0xC0 ≠ 0x80 then .error .invalidPesHeader
    else
      let ptsDtsFlags := (data.getD 7 0 >>> 6) &&& 0x03
      let hdrEnd := 9 + (data.getD 8 0).toNat
      if data.length < hdrEnd then .ok none
      else
        let pts := if 2 ≤ ptsDtsFlags ∧ 14 ≤ data.length then some (readPts data) else none
        let payloadEnd :=
          if pesPacketLen = 0 then
            (findStartCode data hdrEnd).bind fun sc => if hdrEnd < sc then some sc else none
          else some (6 + pesPacketLen)
        match payloadEnd with
        | none => .ok none
        | some payloadEnd =>
          .ok (some (⟨streamId, (data.take payloadEnd).drop hdrEnd, pts⟩, payloadEnd))

/-- The loop of `parse_one_pes` from the position `pos` on. -/
def parseOnePesFrom : Nat → Bytes → Nat → Except PsError (Option (PesPacket × Nat))
  | 0, _, _ => .ok none
  | fuel + 1, data, pos =>
    if data.length < pos + 4 then .ok none
    else
      let code := data.drop pos
      if code.take 3 ≠ [0, 0, 1] then .error .invalidStartCode
      else
        let sc := code.getD 3 0
        if sc = 0xBA then
          if code.length < 14 then .ok none
          else parseOnePesFrom fuel data (pos + (14 + (code.getD 13 0 &&& 0x07).toNat))
        else if sc = 0xBB ∨ sc = 0xBC then
          if code.length < 6 then .ok none
          else parseOnePesFrom fuel data (pos + (6 + ofBe ((code.drop 4).take 2)))
        else if 0xC0 ≤ sc then
          (parsePesPacket code).map fun found => found.map fun p => (p.1, pos + p.2)
        else
          match findStartCode data (pos + 4) with
          | some next => parseOnePesFrom fuel data next
          | none => .ok none

def parseOnePes (data : Bytes) : Except PsError (Option (PesPacket × Nat)) :=
  if data.length < 6 then .ok none else parseOnePesFrom (data.length + 1) data 0

/-! ## The demuxer -/

structure PsDemuxer where
  buf : Bytes
  streamTypes : List (UInt8 × UInt8)
  deriving DecidableEq

def maxBuf : Nat := 4 * 1024 * 1024

variable (d : PsDemuxer)

namespace PsDemuxer

def new : PsDemuxer := ⟨[], []⟩

/-- `push`: what would exceed `max_buf` is dropped from the front of the buffer. -/
def push (data : Bytes) : PsDemuxer :=
  let excess := min (d.buf.length + data.length - maxBuf) d.buf.length
  { d with buf := d.buf.drop excess ++ data }

def pending : Nat := d.buf.length

def streamType (streamId : UInt8) : Option UInt8 := d.streamTypes.lookup streamId

/-- The stream types after a header; a map adds its entries. -/
def declared (streamTypes : List (UInt8 × UInt8)) (header : Bytes) : List (UInt8 × UInt8) :=
  if header.getD 3 0 = 0xBC then (parseProgramStreamMap header).reverse ++ streamTypes
  else streamTypes

/-- The leading headers are stripped, and maps read. -/
def stripHeaders : Nat → PsDemuxer → PsDemuxer
  | 0, d => d
  | fuel + 1, d =>
    match leadingHeaderLen d.buf with
    | none => d
    | some length =>
      stripHeaders fuel ⟨d.buf.drop length, declared d.streamTypes (d.buf.take length)⟩

/-- The length of all the leading headers together. -/
def headersLen : Nat → Bytes → Nat
  | 0, _ => 0
  | fuel + 1, buf =>
    match leadingHeaderLen buf with
    | none => 0
    | some n => n + headersLen fuel (buf.drop n)

/-- The loop of `next_pes`. -/
def nextPesUpTo : Nat → PsDemuxer → PsDemuxer × Option PesPacket
  | 0, d => (d, none)
  | fuel + 1, d =>
    let d := stripHeaders (d.buf.length + 1) d
    match parseOnePes d.buf with
    | .ok (some (pes, consumed)) => ({ d with buf := d.buf.drop consumed }, some pes)
    | .ok none =>
      let pos := headersLen (d.buf.length + 1) d.buf
      if 0 < pos then nextPesUpTo fuel { d with buf := d.buf.drop pos } else (d, none)
    | .error _ =>
      match findStartCode d.buf 0 with
      | some sc => nextPesUpTo fuel { d with buf := d.buf.drop (max sc 1) }
      | none => ({ d with buf := [] }, none)

/-- `next_pes`. Every round but the last takes a byte. -/
def nextPes : PsDemuxer × Option PesPacket := nextPesUpTo (d.buf.length + 1) d

/-- `next_pes` until it returns nothing, at most `fuel` times. -/
def drainPesUpTo : Nat → PsDemuxer → PsDemuxer × List PesPacket
  | 0, d => (d, [])
  | fuel + 1, d =>
    match d.nextPes with
    | (d, none) => (d, [])
    | (d, some pes) =>
      let rest := drainPesUpTo fuel d
      (rest.1, pes :: rest.2)

/-- `next_pes` until it returns nothing; every packet takes a byte. -/
def drainPes : PsDemuxer × List PesPacket := drainPesUpTo (d.buf.length + 1) d

/-- Some pushes, with `next_pes` drained after each. -/
def pushAll (d : PsDemuxer) : List Bytes → PsDemuxer × List PesPacket
  | [] => (d, [])
  | piece :: pieces =>
    let first := (d.push piece).drainPes
    let rest := pushAll first.1 pieces
    (rest.1, first.2 ++ rest.2)

end PsDemuxer

/-! ## As a reader -/

variable {fuel n : Nat} {b data u : Bytes}

open PsDemuxer

/-- What a round does at the front of the buffer. -/
def psNext (streamTypes : List (UInt8 × UInt8)) (buf : Bytes) :
    Attempt (List (UInt8 × UInt8)) UInt8 PesPacket :=
  match leadingHeaderLen buf with
  | some n => .take (declared streamTypes (buf.take n)) [] (buf.drop n)
  | none =>
    match parseOnePes buf with
    | .ok (some (pes, consumed)) => .take streamTypes [pes] (buf.drop consumed)
    | .ok none => .wait
    | .error _ =>
      match findStartCode buf 0 with
      | some sc => .take streamTypes [] (buf.drop (max sc 1))
      | none => .take streamTypes [] []

/-- A header with a length of its own. -/
def IsHeaderId (id : UInt8) : Prop := id = 0xBA ∨ id = 0xBB ∨ id = 0xBC

instance (id : UInt8) : Decidable (IsHeaderId id) := inferInstanceAs (Decidable (_ ∨ _))

theorem not_isHeaderId {id : UInt8} (h : 0xC0 ≤ id) : ¬ IsHeaderId id := by
  rintro (rfl | rfl | rfl) <;> exact absurd h (by decide)

/-- The length that a header names. -/
def headerSize (b : Bytes) : Nat :=
  if b.getD 3 0 = 0xBA then 14 + (b.getD 13 0 &&& 0x07).toNat else 6 + ofBe ((b.drop 4).take 2)

theorem six_le_headerSize (b : Bytes) : 6 ≤ headerSize b := by
  unfold headerSize
  split <;> omega

theorem leadingHeaderLen_eq (b : Bytes) : leadingHeaderLen b =
    if StartsCode b ∧ IsHeaderId (b.getD 3 0) ∧ headerSize b ≤ b.length then some (headerSize b)
      else none := by
  unfold leadingHeaderLen headerSize IsHeaderId
  grind

theorem leadingHeaderLen_eq_some (h : leadingHeaderLen b = some n) :
    n = headerSize b ∧ StartsCode b ∧ IsHeaderId (b.getD 3 0) ∧ n ≤ b.length := by
  rw [leadingHeaderLen_eq] at h
  split at h
  next ha =>
    obtain rfl := some.inj h
    exact ⟨rfl, ha⟩
  · cases h

theorem leadingHeaderLen_le (h : leadingHeaderLen data = some n) : 0 < n ∧ n ≤ data.length := by
  obtain ⟨rfl, -, -, hle⟩ := leadingHeaderLen_eq_some h
  exact ⟨lt_of_lt_of_le (by decide) (six_le_headerSize data), hle⟩

theorem scanStartCode_le {i k : Nat} (h : scanStartCode fuel i data = some k) :
    i ≤ k ∧ k + 4 ≤ i + data.length := by
  fun_induction scanStartCode fuel i data with
  | case1 => cases h
  | case2 => cases h
  | case3 | case5 =>
    obtain rfl := some.inj h
    omega
  | case4 _ _ _ _ _ _ ih | case6 _ _ _ _ _ _ ih =>
    have := ih h
    rw [length_drop] at this
    omega

theorem findStartCode_le {start k : Nat} (h : findStartCode data start = some k) :
    start ≤ k ∧ k + 4 ≤ data.length := by
  obtain ⟨h₁, h₂⟩ := scanStartCode_le h
  rw [length_drop] at h₂
  omega

theorem parsePesPacket_le {pes : PesPacket}
    (h : parsePesPacket data = .ok (some (pes, n))) : 6 < n ∧ n ≤ data.length := by
  unfold parsePesPacket at h
  dsimp only at h
  split at h
  · cases h
  split at h
  · cases h
  split at h
  · cases h
  split at h
  · cases h
  next hlen _ _ =>
    by_cases hz : ofBe ((data.drop 4).take 2) = 0
    · rw [if_pos hz] at h
      cases hf : findStartCode data (9 + (data.getD 8 0).toNat) with
      | none => rw [hf] at h; cases h
      | some sc =>
        rw [hf, bind_some] at h
        have hle := findStartCode_le hf
        split at h
        · cases h
        next he =>
          split at he
          · obtain rfl := some.inj he
            cases h
            omega
          · cases he
    · rw [if_neg hz] at h
      cases h
      omega

theorem parseOnePesFrom_le : ∀ {data : Bytes} {pos n : Nat} {pes : PesPacket},
    parseOnePesFrom fuel data pos = .ok (some (pes, n)) → pos < n ∧ n ≤ data.length := by
  induction fuel with
  | zero => intro data pos n pes h; cases h
  | succ fuel ih =>
    intro data pos n pes h
    rw [parseOnePesFrom] at h
    dsimp only at h
    split at h
    · cases h
    split at h
    · cases h
    split at h
    · split at h
      · cases h
      · have := ih h
        omega
    split at h
    · split at h
      · cases h
      · have := ih h
        omega
    split at h
    · cases hp : parsePesPacket (data.drop pos) with
      | error e => rw [hp] at h; cases h
      | ok found =>
        rw [hp] at h
        cases found with
        | none => cases h
        | some q =>
          have hle := parsePesPacket_le hp
          rw [length_drop] at hle
          cases h
          omega
    split at h
    next next hn =>
      have hle := findStartCode_le hn
      have := ih h
      omega
    · cases h

theorem parseOnePes_le {pes : PesPacket}
    (h : parseOnePes data = .ok (some (pes, n))) : 0 < n ∧ n ≤ data.length := by
  unfold parseOnePes at h
  split at h
  · cases h
  · exact parseOnePesFrom_le h

theorem length_of_parseOnePes_error {e : PsError} (h : parseOnePes data = .error e) :
    6 ≤ data.length := by
  unfold parseOnePes at h
  split at h
  · cases h
  · omega

theorem shrinks_psNext : Shrinks psNext := by
  intro types b types' o r h
  unfold psNext at h
  split at h
  next n hn =>
    have := leadingHeaderLen_le hn
    cases h
    rw [length_drop]
    omega
  split at h
  next pes consumed hp =>
    have := parseOnePes_le hp
    cases h
    rw [length_drop]
    omega
  · cases h
  next e he =>
    have := length_of_parseOnePes_error he
    split at h
    · cases h
      rw [length_drop]
      omega
    · cases h
      show 0 < b.length
      omega

/-! ## Asking until nothing more comes -/

theorem stripHeaders_spec : ∀ {d : PsDemuxer}, d.buf.length < fuel →
    leadingHeaderLen (stripHeaders fuel d).buf = none ∧
      (stripHeaders fuel d).buf.length ≤ d.buf.length ∧
      feed psNext d.streamTypes d.buf =
        feed psNext (stripHeaders fuel d).streamTypes (stripHeaders fuel d).buf := by
  induction fuel with
  | zero => intro d h; omega
  | succ fuel ih =>
    intro d hlen
    rw [stripHeaders]
    cases hn : leadingHeaderLen d.buf with
    | none => exact ⟨hn, le_rfl, rfl⟩
    | some n =>
      have hle := leadingHeaderLen_le hn
      have hnx : psNext d.streamTypes d.buf = .take (declared d.streamTypes (d.buf.take n)) []
          (d.buf.drop n) := by
        simp only [psNext, hn]
      obtain ⟨hno, hlen', hf⟩ := ih (d := ⟨d.buf.drop n, declared d.streamTypes (d.buf.take n)⟩)
          (by rw [length_drop]; omega)
      refine ⟨hno, ?_, ?_⟩
      · rw [length_drop] at hlen'
        exact le_trans hlen' (Nat.sub_le _ _)
      · rw [feed_of_take shrinks_psNext hnx, Fed.prepend_nil]
        exact hf

/-- One call of `next_pes`: the reader's loop up to the next packet, or to its end. -/
theorem nextPesUpTo_spec : ∀ {d d' : PsDemuxer} {found : Option PesPacket},
    d.buf.length < fuel → nextPesUpTo fuel d = (d', found) →
      match found with
      | none => feed psNext d.streamTypes d.buf = some (d'.streamTypes, [], d'.buf)
      | some pes => d'.buf.length < d.buf.length ∧ feed psNext d.streamTypes d.buf =
          Fed.prepend [pes] (feed psNext d'.streamTypes d'.buf) := by
  induction fuel with
  | zero => intro d d' found h; omega
  | succ fuel ih =>
    intro d d' found hlen h
    rw [nextPesUpTo] at h
    obtain ⟨hno, hle, hfd⟩ := stripHeaders_spec (d := d) (Nat.lt_succ_self _)
    generalize stripHeaders (d.buf.length + 1) d = c at h hno hle hfd
    rw [hfd]
    cases hp : parseOnePes c.buf with
    | ok result =>
      cases result with
      | some q =>
        have hnx : psNext c.streamTypes c.buf = .take c.streamTypes [q.1] (c.buf.drop q.2) := by
          simp only [psNext, hno, hp]
        have hle' := parseOnePes_le hp
        rw [hp] at h
        obtain ⟨rfl, rfl⟩ := Prod.mk.inj h
        refine ⟨?_, feed_of_take shrinks_psNext hnx⟩
        rw [length_drop]
        omega
      | none =>
        have hnx : psNext c.streamTypes c.buf = .wait := by
          simp only [psNext, hno, hp]
        -- the headers are gone already, so there is nothing more to drop
        have hpos : headersLen (c.buf.length + 1) c.buf = 0 := by
          rw [headersLen, hno]
        rw [hp] at h
        rw [hpos] at h
        obtain ⟨rfl, rfl⟩ := Prod.mk.inj h
        exact feed_of_wait hnx
    | error e =>
      have hl6 := length_of_parseOnePes_error hp
      rw [hp] at h
      cases hf : findStartCode c.buf 0 with
      | some sc =>
        have hnx : psNext c.streamTypes c.buf = .take c.streamTypes [] (c.buf.drop (max sc 1)) := by
          simp only [psNext, hno, hp, hf]
        have hd : (c.buf.drop (max sc 1)).length < c.buf.length := by
          rw [length_drop]
          omega
        rw [hf] at h
        have hr := ih (d := { c with buf := c.buf.drop (max sc 1) })
          (lt_of_lt_of_le hd (by omega)) h
        rw [feed_of_take shrinks_psNext hnx, Fed.prepend_nil]
        cases found with
        | none => exact hr
        | some pes => exact ⟨lt_trans hr.1 (lt_of_lt_of_le hd hle), hr.2⟩
      | none =>
        have hnx : psNext c.streamTypes c.buf = .take c.streamTypes [] [] := by
          simp only [psNext, hno, hp, hf]
        have hw : psNext c.streamTypes [] = .wait := rfl
        rw [hf] at h
        obtain ⟨rfl, rfl⟩ := Prod.mk.inj h
        rw [feed_of_take shrinks_psNext hnx, Fed.prepend_nil]
        exact feed_of_wait hw

theorem drainPesUpTo_spec : ∀ {d : PsDemuxer}, d.buf.length < fuel →
    feed psNext d.streamTypes d.buf = some ((drainPesUpTo fuel d).1.streamTypes,
      (drainPesUpTo fuel d).2, (drainPesUpTo fuel d).1.buf) := by
  induction fuel with
  | zero => intro d h; omega
  | succ fuel ih =>
    intro d hlen
    rw [drainPesUpTo]
    obtain ⟨d', found, hn⟩ : ∃ d' found, d.nextPes = (d', found) := ⟨_, _, rfl⟩
    have hs := nextPesUpTo_spec (Nat.lt_succ_self _) hn
    rw [hn]
    cases found with
    | none => exact hs
    | some pes =>
      rw [hs.2, ih (lt_of_lt_of_le hs.1 (Nat.le_of_lt_succ hlen))]
      rfl

/-- **Asking until nothing more comes** is the loop of the reader `psNext`. -/
theorem drainPes_eq_feed : feed psNext d.streamTypes d.buf =
    some (d.drainPes.1.streamTypes, d.drainPes.2, d.drainPes.1.buf) :=
  drainPesUpTo_spec (Nat.lt_succ_self _)

/-- A push that stays within the limit only appends. -/
theorem push_of_fits {d : PsDemuxer} (h : d.buf.length + data.length ≤ maxBuf) :
    d.push data = { d with buf := d.buf ++ data } := by
  unfold push
  rw [Nat.sub_eq_zero_of_le h]
  rfl

theorem push_new (data : Bytes) : new.push data = ⟨data, []⟩ := by
  unfold push new
  rw [length_nil, Nat.min_zero]
  rfl

/-! ## Headers and packets -/

/-- The loop of `parse_one_pes` passes over a complete header. -/
theorem parseOnePesFrom_header {pos : Nat} (h : StartsCode (data.drop pos))
    (hid : IsHeaderId ((data.drop pos).getD 3 0)) :
    parseOnePesFrom (fuel + 1) data pos =
      match leadingHeaderLen (data.drop pos) with
      | some n => parseOnePesFrom fuel data (pos + n)
      | none => .ok none := by
  have hlen := h.1
  rw [length_drop] at hlen
  obtain ⟨k, hk, hs⟩ : ∃ k, k ≤ headerSize (data.drop pos) ∧ parseOnePesFrom (fuel + 1) data pos =
      if (data.drop pos).length < k then .ok none else parseOnePesFrom fuel data
        (pos + headerSize (data.drop pos)) := by
    rw [parseOnePesFrom, if_neg (by omega), headerSize]
    dsimp only
    rw [if_neg (not_not_intro h.2)]
    by_cases hba : (data.drop pos).getD 3 0 = 0xBA
    · rw [if_pos hba, if_pos hba]
      exact ⟨14, Nat.le_add_right .., rfl⟩
    · rw [if_neg hba, if_neg hba, if_pos (hid.resolve_left hba)]
      exact ⟨6, Nat.le_add_right .., rfl⟩
  rw [hs]
  by_cases hf : headerSize (data.drop pos) ≤ (data.drop pos).length
  · rw [leadingHeaderLen_eq, if_neg (by omega), if_pos ⟨h, hid, hf⟩]
  have hn : leadingHeaderLen (data.drop pos) = none :=
    (leadingHeaderLen_eq _).trans (if_neg fun hc => hf hc.2.2)
  rw [hn]
  split
  · rfl
  · -- past the end of the bytes the loop stops
    rw [length_drop] at hf
    cases fuel with
    | zero => rfl
    | succ fuel => rw [parseOnePesFrom, if_pos (by omega)]

theorem parseOnePes_of_header (h : StartsCode b) (hid : IsHeaderId (b.getD 3 0))
    (hn : leadingHeaderLen b = none) : parseOnePes b = .ok none := by
  unfold parseOnePes
  split
  · rfl
  · rw [@parseOnePesFrom_header _ b 0 h hid, drop_zero, hn]

theorem parseOnePes_of_packet (h : StartsCode b) (hid : 0xC0 ≤ b.getD 3 0) :
    parseOnePes b = parsePesPacket b := by
  unfold parseOnePes
  split
  next hs => rw [parsePesPacket, if_pos (by omega)]
  next =>
    have hno := not_isHeaderId hid
    rw [parseOnePesFrom, if_neg (by omega), drop_zero]
    dsimp only
    rw [if_neg (not_not_intro h.2), if_neg fun hba => hno (.inl hba), if_neg fun hbb =>
      hno (.inr hbb), if_pos hid]
    rcases parsePesPacket b with e | _ | p
    · rfl
    · rfl
    · show Except.ok (some (p.1, 0 + p.2)) = _
      rw [zero_add]

/-! ## With more bytes behind -/

theorem psNext_nil (types : List (UInt8 × UInt8)) : psNext types [] = .wait := rfl

theorem getD_append_left (u t : Bytes) {i : Nat} (h : i < u.length) : (u ++ t).getD i 0 =
    u.getD i 0 := getD_append _ _ _ _ h

theorem take_drop_append (u t : Bytes) {i : Nat} (h : i + n ≤ u.length) :
    ((u ++ t).drop i).take n = (u.drop i).take n := by
  rw [drop_append_of_le_length (by omega), take_append_of_le_length]
  rw [length_drop]
  omega

theorem startsCode_append {t : Bytes} (h : 4 ≤ u.length) : StartsCode (u ++ t) ↔ StartsCode u := by
  unfold StartsCode
  rw [take_append_of_le_length (by omega), length_append]
  exact ⟨fun hs => ⟨h, hs.2⟩, fun hs => ⟨by omega, hs.2⟩⟩

theorem leadingHeaderLen_append (h : leadingHeaderLen u = some n) (t : Bytes) :
    leadingHeaderLen (u ++ t) = some n := by
  obtain ⟨rfl, hc, hid, hle⟩ := leadingHeaderLen_eq_some h
  have h3 := getD_append_left u t hc.1
  have hs : headerSize (u ++ t) = headerSize u := by
    unfold headerSize at hle ⊢
    rw [h3]
    split
    next hba =>
      rw [if_pos hba] at hle
      rw [getD_append_left u t (by omega)]
    next hba =>
      rw [if_neg hba] at hle
      rw [take_drop_append u t (by omega)]
  rw [leadingHeaderLen_eq, h3, hs, length_append, if_pos]
  exact ⟨(startsCode_append hc.1).mpr hc, hid, Nat.le_add_right_of_le hle⟩

theorem readPts_append (h : 14 ≤ u.length) (t : Bytes) : readPts (u ++ t) = readPts u := by
  have hg : ∀ i, i < 5 → (u ++ t).getD (9 + i) 0 = u.getD (9 + i) 0 := fun i hi =>
    getD_append_left u t (by omega)
  unfold readPts
  dsimp only
  rw [hg 0 (by decide), hg 1 (by decide), hg 2 (by decide), hg 3 (by decide), hg 4 (by decide)]

/-! ## Pushes -/

/-- At every push the pending bytes and the piece fit into the buffer together. -/
def Fits : PsDemuxer → List Bytes → Prop
  | _, [] => True
  | d, piece :: pieces => d.pending + piece.length ≤ maxBuf ∧ Fits (d.push piece).drainPes.1 pieces

instance decidableFits : (d : PsDemuxer) → (pieces : List Bytes) → Decidable (Fits d pieces)
  | _, [] => isTrue trivial
  | d, piece :: pieces =>
    haveI := decidableFits (d.push piece).drainPes.1 pieces
    inferInstanceAs (Decidable (_ ∧ _))

theorem pushAll_eq_feedAll : ∀ {pieces : List Bytes} {d : PsDemuxer}, Fits d pieces →
    feedAll psNext d.streamTypes d.buf pieces =
      some ((d.pushAll pieces).1.streamTypes, (d.pushAll pieces).2, (d.pushAll pieces).1.buf)
  | [], d, _ => rfl
  | piece :: pieces, d, h => by
    have hf := drainPes_eq_feed (d.push piece)
    rw [push_of_fits h.1] at hf
    rw [feedAll, hf, bind_some, pushAll, push_of_fits h.1]
    have hr := h.2
    rw [push_of_fits h.1] at hr
    rw [pushAll_eq_feedAll hr]
    rfl

end MediaKit.Ps
