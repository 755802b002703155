import Hawal.Lib.Segments
import Hawal.Panel.WsFrames
import Mathlib.Data.List.Basic

/-!
# Messages from the dashboard

`handle_ws_dashboard` reads the frames of a browser with `StreamReader.read`, which gives what has
arrived and not what was asked for. The connection is a `Segmented` stream: a read stops at the end of
a segment.

* `handleWsDashboard` — the payloads that the loop unmasks, and how it is left; it always is
  (`exists_handleWsDashboard`).
* `Recovers` — it unmasks what the frames carry and is left at the end of the stream.
* `recovers_iff_whole` — for which segmentations it does: those with no segment that ends inside a
  header, a length, a mask or a payload. It is stated for the form of the frames, since a stream that
  is read out of step may still come out right by accident.
-/

namespace Hawal.Panel.WsReading

open Hawal.Lib Hawal.Panel.WsFrames

/-! ### The loop -/

/-- The connection. -/
abbrev Reader := Segmented UInt8

/-- How the loop is left. -/
inductive Exit where
  /-- A read of the header gives nothing. -/
  | endOfStream
  /-- It gives one byte. -/
  | shortHeader
  /-- By an exception. -/
  | exception
  deriving DecidableEq, Repr

/-- `[b ^ mask[i % 4] for i, b in enumerate(data)]`, from the index `i` on; `none` for an `IndexError`. -/
def unmask (mask : List UInt8) : ℕ → List UInt8 → Option (List UInt8)
  | _, [] => some []
  | i, b :: data =>
    match mask[i % 4]? with
    | none => none
    | some m => (unmask mask (i + 1) data).map fun unmasked => (b ^^^ m) :: unmasked

/-- The length that follows the second byte `b` of a header. -/
def readLength (b : UInt8) (r : Reader) : ℕ × Reader :=
  match LengthForm.of b with
  | .seven => ((b &&& 0x7F).toNat, r)
  | .two => (ofBigEndian (r.read 2).1, (r.read 2).2)
  | .eight => (ofBigEndian (r.read 8).1, (r.read 8).2)

/-- The mask and the data. -/
def readBody (length : ℕ) (r : Reader) : Except Exit (List UInt8 × Reader) :=
  let mask := r.read 4
  let data := mask.2.read length
  match unmask mask.1 0 data.1 with
  | none => .error .exception
  | some unmasked => .ok (unmasked, data.2)

/-- One turn of the loop. -/
def turn (r : Reader) : Except Exit (List UInt8 × Reader) :=
  let hdr := r.read 2
  match hdr.1 with
  | [] => .error .endOfStream
  | [_] => .error .shortHeader
  | _ :: b :: _ =>
    let length := readLength b hdr.2
    readBody length.1 length.2

/-- The loop, for so many turns. -/
def loop : ℕ → Reader → Option (List (List UInt8) × Exit)
  | 0, _ => none
  | fuel + 1, r =>
    match turn r with
    | .error e => some ([], e)
    | .ok (unmasked, r') => (loop fuel r').map fun out => (unmasked :: out.1, out.2)

/-- `handle_ws_dashboard`: what is unmasked, and how the loop is left. -/
def handleWsDashboard (r : Reader) : Option (List (List UInt8) × Exit) := loop (r.rest.length + 1) r

/-- It unmasks these payloads and is left at the end of the stream. -/
def Recovers (r : Reader) (payloads : List (List UInt8)) : Prop := handleWsDashboard r = some (payloads, .endOfStream)

instance (r : Reader) (payloads : List (List UInt8)) : Decidable (Recovers r payloads) :=
  inferInstanceAs (Decidable (_ = _))

/-! ### Frames of a client -/

/-- The form of a frame: all but its mask and its payload. -/
structure Shape where
  fin : Bool
  opcode : Fin 16
  length : ℕ
  length_lt : length < 2 ^ 64
  deriving DecidableEq

/-- A frame with a mask. -/
structure Frame where
  fin : Bool
  opcode : Fin 16
  mask : List UInt8
  payload : List UInt8
  mask_length : mask.length = 4
  length_lt : payload.length < 2 ^ 64

/-- The lengths of what is read: the first two bytes, the bytes of the length, the mask and the data. -/
def Shape.parts (s : Shape) : List ℕ := [2, (formOf s.length).size, 4, s.length]

namespace Frame

variable (f : Frame)

def shape : Shape := ⟨f.fin, f.opcode, f.payload.length, f.length_lt⟩

/-- The payload under the mask, from the index `i` on. -/
def maskFrom (mask : List UInt8) : ℕ → List UInt8 → List UInt8
  | _, [] => []
  | i, b :: data => (b ^^^ mask.getD (i % 4) 0) :: maskFrom mask (i + 1) data

/-- The first byte. -/
def first : UInt8 := (if f.fin then 0x80 else 0) ||| UInt8.ofNat f.opcode

/-- The second byte, with the MASK bit. -/
def second : UInt8 := 0x80 ||| UInt8.ofNat (sevenBits f.payload.length)

/-- The frame on the wire. -/
def bytes : List UInt8 :=
  [f.first, f.second] ++ (rawLen f.payload.length ++ (f.mask ++ maskFrom f.mask 0 f.payload))

end Frame

/-- What a client sends. -/
def stream (fs : List Frame) : List UInt8 := fs.flatMap Frame.bytes

/-- **No segment ends inside a part of a frame.** -/
def Whole (shapes : List Shape) (cuts : List Cut) : Prop :=
  ∀ x ∈ Segmented.ends 0 (cuts.map Subtype.val),
    x ∈ Segmented.ends 0 (shapes.flatMap Shape.parts) ∨ ∀ y ∈ Segmented.ends 0 (shapes.flatMap Shape.parts), y ≤ x

/-! ### The turns -/

theorem unmask_length {mask data u : List UInt8} {i : ℕ} (h : unmask mask i data = some u) :
    u.length = data.length := by
  induction data generalizing i u with
  | nil =>
    cases h
    rfl
  | cons b data ih =>
    rw [unmask] at h
    split at h
    · cases h
    · obtain ⟨unmasked, hrest, rfl⟩ := Option.map_eq_some_iff.mp h
      rw [List.length_cons, List.length_cons, ih hrest]

/-- The first byte is unmasked with the first of the mask. -/
theorem unmask_head {mask data u : List UInt8} {b m : UInt8} (h : unmask (m :: mask) 0 (b :: data) = some u) :
    u.head? = some (b ^^^ m) := by
  rw [unmask] at h
  simp only [Nat.zero_mod, List.getElem?_cons_zero] at h
  obtain ⟨unmasked, -, rfl⟩ := Option.map_eq_some_iff.mp h
  rfl

/-- What was masked is unmasked. -/
theorem unmask_maskFrom {mask : List UInt8} (hmask : mask.length = 4) (i : ℕ) (payload : List UInt8) :
    unmask mask i (Frame.maskFrom mask i payload) = some payload := by
  induction payload generalizing i with
  | nil => rfl
  | cons b payload ih =>
    have hlt : i % 4 < mask.length := by
      rw [hmask]
      exact Nat.mod_lt i (by decide)
    have hget : mask[i % 4]? = some (mask.getD (i % 4) 0) := by
      rw [List.getD_eq_getElem?_getD, List.getElem?_eq_getElem hlt]
      rfl
    rw [Frame.maskFrom, unmask, hget]
    dsimp only
    rw [ih, UInt8.xor_assoc, UInt8.xor_self, UInt8.xor_zero]
    rfl

theorem length_maskFrom (mask : List UInt8) (i : ℕ) (payload : List UInt8) :
    (Frame.maskFrom mask i payload).length = payload.length := by
  induction payload generalizing i with
  | nil => rfl
  | cons b payload ih => rw [Frame.maskFrom, List.length_cons, List.length_cons, ih]

/-- The mask and the data of a turn. -/
theorem readBody_ok {length : ℕ} {r r' : Reader} {u : List UInt8} (h : readBody length r = .ok (u, r')) :
    unmask (r.read 4).1 0 ((r.read 4).2.read length).1 = some u ∧ r' = ((r.read 4).2.read length).2 := by
  unfold readBody at h
  dsimp only at h
  split at h
  · cases h
  · rename_i hu
    cases h
    exact ⟨hu, rfl⟩

/-- A payload is not longer than was asked for. -/
theorem length_le_of_readBody {length : ℕ} {r r' : Reader} {u : List UInt8} (h : readBody length r = .ok (u, r')) :
    u.length ≤ length := by
  rw [unmask_length (readBody_ok h).1]
  exact Segmented.length_read_le _ _

theorem turn_eq_endOfStream {r : Reader} (h : turn r = .error .endOfStream) : r.rest = [] := by
  unfold turn readBody at h
  dsimp only at h
  split at h
  · rename_i hdr
    exact (Segmented.read_eq_nil_iff (by decide) r).mp hdr
  · cases h
  · split at h <;> cases h

/-- A turn that gives a payload has a whole header. -/
theorem turn_ok {r r' : Reader} {u : List UInt8} (h : turn r = .ok (u, r')) :
    ∃ b₀ b₁, (r.read 2).1 = [b₀, b₁] ∧
      readBody (readLength b₁ (r.read 2).2).1 (readLength b₁ (r.read 2).2).2 = .ok (u, r') := by
  unfold turn at h
  dsimp only at h
  split at h
  · cases h
  · cases h
  · rename_i b₀ b₁ tail hdr
    have hlen := Segmented.length_read_le 2 r
    rw [hdr, List.length_cons, List.length_cons] at hlen
    have htail : tail = [] := List.length_eq_zero_iff.mp (by omega)
    exact ⟨b₀, b₁, htail ▸ hdr, h⟩

/-- The length is read in as many bytes as the second byte says. -/
theorem readLength_eq (b : UInt8) (r : Reader) :
    readLength b r =
      (payloadLength b (r.read (LengthForm.of b).size).1, (r.read (LengthForm.of b).size).2) := by
  unfold readLength payloadLength
  cases LengthForm.of b with
  | seven =>
    rw [show LengthForm.seven.size = 0 from rfl, Segmented.read_zero]
  | two => rfl
  | eight => rfl

theorem rest_readLength_le (b : UInt8) (r : Reader) : (readLength b r).2.rest.length ≤ r.rest.length := by
  rw [readLength_eq]
  exact Segmented.length_rest_read_le _ r

/-- The loop gets on. -/
theorem rest_turn_lt {r r' : Reader} {u : List UInt8} (h : turn r = .ok (u, r')) : r'.rest.length < r.rest.length := by
  obtain ⟨b₀, b₁, hdr, hbody⟩ := turn_ok h
  have hlen := congrArg List.length (Segmented.read_append 2 r)
  rw [hdr, List.length_append] at hlen
  have hlength := rest_readLength_le b₁ (r.read 2).2
  rw [(readBody_ok hbody).2]
  have hmask := Segmented.length_rest_read_le 4 (readLength b₁ (r.read 2).2).2
  have hdata := Segmented.length_rest_read_le (readLength b₁ (r.read 2).2).1 ((readLength b₁ (r.read 2).2).2.read 4).2
  simp only [List.length_cons, List.length_nil] at hlen
  omega

/-! ### The loop as a whole -/

theorem loop_fuel {n m : ℕ} {r : Reader} (hn : r.rest.length < n) (hm : r.rest.length < m) : loop n r = loop m r := by
  induction n generalizing m r with
  | zero => exact absurd hn (Nat.not_lt_zero _)
  | succ n ih =>
    cases m with
    | zero => exact absurd hm (Nat.not_lt_zero _)
    | succ m =>
      rw [loop, loop]
      cases h : turn r with
      | error e => rfl
      | ok out =>
        have hlt : out.2.rest.length < r.rest.length := rest_turn_lt h
        dsimp only
        rw [ih (Nat.lt_of_lt_of_le hlt (Nat.le_of_lt_succ hn)) (Nat.lt_of_lt_of_le hlt (Nat.le_of_lt_succ hm))]

/-- **The loop is left**, on every connection: each turn reads something. -/
theorem exists_handleWsDashboard (r : Reader) : ∃ out, handleWsDashboard r = some out := by
  have hloop : ∀ n (r : Reader), r.rest.length < n → ∃ out, loop n r = some out := by
    intro n
    induction n with
    | zero => exact fun r h => absurd h (Nat.not_lt_zero _)
    | succ n ih =>
      intro r h
      rw [loop]
      cases hturn : turn r with
      | error e => exact ⟨_, rfl⟩
      | ok out =>
        obtain ⟨rest, hrest⟩ := ih out.2 (Nat.lt_of_lt_of_le (rest_turn_lt hturn) (Nat.le_of_lt_succ h))
        dsimp only
        rw [hrest]
        exact ⟨_, rfl⟩
  exact hloop _ r (Nat.lt_succ_self _)

theorem recovers_of_ok {r r' : Reader} {u : List UInt8} {ps : List (List UInt8)} (h : turn r = .ok (u, r')) :
    Recovers r ps ↔ ∃ ps', ps = u :: ps' ∧ Recovers r' ps' := by
  have hfuel : loop r.rest.length r' = handleWsDashboard r' :=
    loop_fuel (rest_turn_lt h) (Nat.lt_succ_self _)
  rw [Recovers, handleWsDashboard, loop, h]
  dsimp only
  rw [hfuel, Option.map_eq_some_iff]
  constructor
  · rintro ⟨⟨ps', e⟩, hrest, heq⟩
    cases heq
    exact ⟨ps', rfl, hrest⟩
  · rintro ⟨ps', rfl, hrest⟩
    exact ⟨_, hrest, rfl⟩

/-- **What a run that recovers has done first.** -/
theorem Recovers.inv {r : Reader} {ps : List (List UInt8)} (h : Recovers r ps) :
    r.rest = [] ∧ ps = [] ∨ ∃ u r' ps', turn r = .ok (u, r') ∧ ps = u :: ps' ∧ Recovers r' ps' := by
  cases hturn : turn r with
  | error e =>
    rw [Recovers, handleWsDashboard, loop, hturn] at h
    cases h
    exact .inl ⟨turn_eq_endOfStream hturn, rfl⟩
  | ok out =>
    obtain ⟨ps', hps, hrest⟩ := (recovers_of_ok hturn).mp h
    exact .inr ⟨out.1, out.2, ps', rfl, hps, hrest⟩

theorem recovers_nil (cuts : List Cut) : Recovers ⟨[], cuts⟩ [] := by
  have hturn : turn ⟨[], cuts⟩ = .error .endOfStream := by
    have hread : (Segmented.read 2 (⟨[], cuts⟩ : Reader)).1 = [] := (Segmented.read_eq_nil_iff (by decide) _).mpr rfl
    unfold turn
    dsimp only
    rw [hread]
  rw [Recovers, handleWsDashboard, loop, hturn]

/-! ### Whole reads -/

namespace Frame

variable (f : Frame)

theorem second_and : f.second &&& 0x7F = UInt8.ofNat (sevenBits f.payload.length) := by
  have hall : ∀ k : Fin 128, (0x80 ||| UInt8.ofNat k) &&& 0x7F = UInt8.ofNat k := by decide
  exact hall ⟨_, sevenBits_lt _⟩

theorem of_second : LengthForm.of f.second = formOf f.payload.length := of_sevenBits f.second_and

/-- The bytes of the length, read whole, give it. -/
theorem readLength_whole {cuts : List Cut} (h : Segmented.grant (formOf f.payload.length).size cuts =
    (formOf f.payload.length).size) (rest : List UInt8) :
    readLength f.second ⟨rawLen f.payload.length ++ rest, cuts⟩ =
      (f.payload.length, ⟨rest, Segmented.spend (formOf f.payload.length).size cuts⟩) := by
  rw [readLength_eq, of_second, Segmented.read_whole h (length_rawLen _),
    payloadLength_sevenBits f.second_and f.length_lt]

/-- Read in part they give less. -/
theorem readLength_short {cuts : List Cut} (h : Segmented.grant (formOf f.payload.length).size cuts <
    (formOf f.payload.length).size) (rest : List UInt8) :
    (readLength f.second ⟨rawLen f.payload.length ++ rest, cuts⟩).1 < f.payload.length := by
  have hform : formOf f.payload.length ≠ .seven := by
    intro hseven
    rw [hseven] at h
    exact Nat.not_lt_zero _ h
  have hpos : 0 < f.payload.length := by
    by_contra hzero
    refine hform ?_
    rw [formOf, if_pos (by omega)]
  have htake : ((rawLen f.payload.length ++ rest).take (Segmented.grant (formOf f.payload.length).size cuts)) =
      (rawLen f.payload.length).take (Segmented.grant (formOf f.payload.length).size cuts) := by
    refine List.take_append_of_le_length ?_
    rw [length_rawLen]
    exact Nat.le_of_lt h
  rw [readLength_eq, of_second, payloadLength, of_second]
  dsimp only [Segmented.read]
  rw [htake]
  cases hf : formOf f.payload.length with
  | seven => exact absurd hf hform
  | two => exact ofBigEndian_take_lt (hf ▸ h) hpos
  | eight => exact ofBigEndian_take_lt (hf ▸ h) hpos

theorem readBody_whole {cuts : List Cut} (hmask : Segmented.grant 4 cuts = 4)
    (hdata : Segmented.grant f.payload.length (Segmented.spend 4 cuts) = f.payload.length) (rest : List UInt8) :
    readBody f.payload.length ⟨f.mask ++ (maskFrom f.mask 0 f.payload ++ rest), cuts⟩ =
      .ok (f.payload, ⟨rest, Segmented.spend f.payload.length (Segmented.spend 4 cuts)⟩) := by
  rw [readBody, Segmented.read_whole hmask f.mask_length]
  dsimp only
  rw [Segmented.read_whole hdata (length_maskFrom _ _ _)]
  dsimp only
  rw [unmask_maskFrom f.mask_length]

/-- A frame that is read whole. -/
theorem turn_whole {cuts : List Cut} (h : Segmented.Aligned f.shape.parts cuts) (rest : List UInt8) :
    ∃ cuts', turn ⟨f.bytes ++ rest, cuts⟩ = .ok (f.payload, ⟨rest, cuts'⟩) ∧
      ∀ ns, Segmented.Aligned (f.shape.parts ++ ns) cuts → Segmented.Aligned ns cuts' := by
  obtain ⟨hheader, hlength, hmask, hdata, -⟩ := h
  refine ⟨_, ?_, fun ns hns => hns.2.2.2.2⟩
  have hbytes : f.bytes ++ rest = [f.first, f.second] ++ (rawLen f.payload.length ++ (f.mask ++
      (maskFrom f.mask 0 f.payload ++ rest))) := by
    simp [bytes]
  rw [turn, hbytes, Segmented.read_whole hheader rfl]
  dsimp only
  rw [f.readLength_whole hlength]
  exact f.readBody_whole hmask hdata rest

end Frame

/-- **Whole reads recover the payloads.** -/
theorem recovers_of_whole {fs : List Frame} {cuts : List Cut} (h : Whole (fs.map Frame.shape) cuts) :
    Recovers ⟨stream fs, cuts⟩ (fs.map Frame.payload) := by
  have haligned := Segmented.aligned_iff_ends.mpr h
  clear h
  induction fs generalizing cuts with
  | nil => exact recovers_nil cuts
  | cons f fs ih =>
    rw [List.map_cons, List.flatMap_cons] at haligned
    have hframe : Segmented.Aligned f.shape.parts cuts :=
      ⟨haligned.1, haligned.2.1, haligned.2.2.1, haligned.2.2.2.1, trivial⟩
    obtain ⟨cuts', hturn, hrest⟩ := f.turn_whole hframe (stream fs)
    exact (recovers_of_ok hturn).mpr ⟨_, rfl, ih (hrest _ haligned)⟩

/-! ### Reads that come back short -/

/-- For the mask of an empty frame: what is left of it is read as a header, and should not say that the
next payload has the length that it has. -/
def lagByte : List Shape → UInt8
  | [] => 0
  | s :: _ => if s.length = 0 then 1 else 0

/-- A frame of the form `s`, before frames of the others. -/
def probeFrame (s : Shape) (shapes : List Shape) : Frame where
  fin := s.fin
  opcode := s.opcode
  mask := List.replicate 4 (if s.length = 0 then lagByte shapes else 0)
  payload := List.replicate s.length 1
  mask_length := List.length_replicate
  length_lt := by
    rw [List.length_replicate]
    exact s.length_lt

theorem payload_probeFrame (s : Shape) (shapes : List Shape) :
    (probeFrame s shapes).payload = List.replicate s.length 1 := rfl

theorem length_payload_probeFrame (s : Shape) (shapes : List Shape) :
    (probeFrame s shapes).payload.length = s.length := List.length_replicate

/-- **Frames of these forms on which every short read shows.** -/
def probe : List Shape → List Frame
  | [] => []
  | s :: shapes => probeFrame s shapes :: probe shapes

theorem shape_probe (shapes : List Shape) : (probe shapes).map Frame.shape = shapes := by
  induction shapes with
  | nil => rfl
  | cons s shapes ih =>
    have hshape : (probeFrame s shapes).shape = s := by
      cases s
      simp [Frame.shape, probeFrame]
    rw [probe, List.map_cons, hshape, ih]

/-- The header of a turn that gives a payload is whole. -/
theorem turn_two {bs : List UInt8} {cuts : List Cut} {r' : Reader} {u : List UInt8}
    (h : turn ⟨bs, cuts⟩ = .ok (u, r')) :
    ∃ b₀ b₁ rest, bs = b₀ :: b₁ :: rest ∧ Segmented.grant 2 cuts = 2 ∧
      readBody (readLength b₁ ⟨rest, Segmented.spend 2 cuts⟩).1 (readLength b₁ ⟨rest, Segmented.spend 2 cuts⟩).2 =
        .ok (u, r') := by
  obtain ⟨b₀, b₁, hdr, hbody⟩ := turn_ok h
  have hgrant : Segmented.grant 2 cuts = 2 := by
    have hlen := congrArg List.length hdr
    rw [Segmented.read, List.length_take] at hlen
    have hle := Segmented.grant_le 2 cuts
    simp only [List.length_cons, List.length_nil] at hlen
    omega
  have hbs : bs = b₀ :: b₁ :: ((⟨bs, cuts⟩ : Reader).read 2).2.rest := by
    have happend := Segmented.read_append 2 (⟨bs, cuts⟩ : Reader)
    rw [hdr] at happend
    exact happend.symm
  exact ⟨b₀, b₁, _, hbs, hgrant, hbody⟩

/-- The mask has what it was granted, and the data comes after it. -/
theorem body_parts {length : ℕ} {bs : List UInt8} {cuts : List Cut} {r' : Reader} {u : List UInt8}
    (h : readBody length ⟨bs, cuts⟩ = .ok (u, r')) :
    ∃ m, 0 < m ∧ m ≤ 4 ∧
      unmask (bs.take m) 0 ((bs.drop m).take (Segmented.grant length (Segmented.spend 4 cuts))) = some u ∧
      r' = ⟨(bs.drop m).drop (Segmented.grant length (Segmented.spend 4 cuts)),
        Segmented.spend length (Segmented.spend 4 cuts)⟩ ∧ m = Segmented.grant 4 cuts :=
  ⟨_, Segmented.grant_pos (by decide) cuts, Segmented.grant_le 4 cuts, (readBody_ok h).1, (readBody_ok h).2, rfl⟩

/-- A first byte, read as a second one, states the opcode as the length. -/
theorem readLength_first (f : Frame) (r : Reader) : readLength f.first r = (f.opcode.val, r) := by
  have hall : ∀ (fin : Bool) (o : Fin 16),
      LengthForm.of ((if fin then 0x80 else 0) ||| UInt8.ofNat o) = .seven ∧
        (((if fin then 0x80 else 0) ||| UInt8.ofNat o) &&& 0x7F).toNat = o.val := by decide
  obtain ⟨hform, hvalue⟩ := hall f.fin f.opcode
  rw [readLength, show LengthForm.of f.first = .seven from hform]
  exact Prod.ext hvalue rfl

theorem bytes_probe_of_zero {s : Shape} (h : s.length = 0) (shapes : List Shape) :
    (probeFrame s shapes).bytes =
      (probeFrame s shapes).first :: (probeFrame s shapes).second :: List.replicate 4 (lagByte shapes) := by
  have hraw : rawLen 0 = [] := rfl
  simp [Frame.bytes, probeFrame, h, hraw, Frame.maskFrom]

/-- What is left of a mask of four bytes of which some were read behind another byte. -/
theorem drop_cons_replicate {m : ℕ} (hpos : 0 < m) (hle : m ≤ 4) (b v : UInt8) (w : List UInt8) :
    (b :: (List.replicate 4 v ++ w)).drop m = List.replicate (5 - m) v ++ w := by
  obtain ⟨k, rfl⟩ := Nat.exists_eq_succ_of_ne_zero (Nat.ne_of_gt hpos)
  have hk : k ≤ (List.replicate 4 v).length := by
    rw [List.length_replicate]
    omega
  rw [List.drop_succ_cons, List.drop_append_of_le_length hk, List.drop_replicate]
  congr 2
  omega

/-- Two bytes of a mask, read as a header, do not give the next payload. -/
theorem length_ne_of_lag {s : Shape} {shapes : List Shape} {r r' : Reader} {u : List UInt8} (hr : 4 < r.rest.length)
    (h : readBody (readLength (lagByte (s :: shapes)) r).1 (readLength (lagByte (s :: shapes)) r).2 = .ok (u, r')) :
    u.length ≠ s.length := by
  rw [lagByte] at h
  by_cases hs : s.length = 0
  · rw [if_pos hs] at h
    obtain ⟨m, -, hm4, hunmask, -⟩ := body_parts h
    have hpos := Segmented.grant_pos Nat.one_pos (Segmented.spend 4 r.cuts)
    have hlen := unmask_length hunmask
    rw [List.length_take, List.length_drop] at hlen
    have hdata : 0 < min (Segmented.grant 1 (Segmented.spend 4 r.cuts)) (r.rest.length - m) :=
      Nat.lt_min.mpr ⟨hpos, by omega⟩
    intro heq
    rw [heq, hs] at hlen
    exact absurd (hlen.symm.trans_lt hdata) (Nat.lt_irrefl _)
  · rw [if_neg hs] at h
    have hle : u.length ≤ 0 := length_le_of_readBody h
    omega

/-- The last byte of a mask and the first of the next frame, read as a header, give its payload only if that
is empty, and then part of its mask is left. -/
theorem zero_of_lag {s : Shape} {shapes : List Shape} {w : List UInt8} {cuts : List Cut} {r' : Reader}
    (h : readBody (probeFrame s shapes).opcode.val ⟨(probeFrame s shapes).bytes.tail ++ w, cuts⟩ =
      .ok ((probeFrame s shapes).payload, r')) :
    s.length = 0 ∧ ∃ j cuts', 0 < j ∧ j ≤ 4 ∧ r' = ⟨List.replicate j (lagByte shapes) ++ w, cuts'⟩ := by
  obtain ⟨m, hm, hm4, hunmask, rfl, -⟩ := body_parts h
  have hlen := unmask_length hunmask
  by_cases hs : s.length = 0
  · rw [bytes_probe_of_zero hs, List.tail_cons, List.cons_append, drop_cons_replicate hm hm4] at hlen ⊢
    have hpayload : (probeFrame s shapes).payload = [] := by
      rw [payload_probeFrame, hs]
      rfl
    rw [hpayload, List.length_take, List.length_append, List.length_replicate] at hlen
    have hgrant : Segmented.grant (probeFrame s shapes).opcode.val (Segmented.spend 4 cuts) = 0 := by
      simp only [List.length_nil] at hlen
      omega
    rw [hgrant]
    exact ⟨hs, 5 - m, _, by omega, by omega, rfl⟩
  · exfalso
    have hpos : 0 < s.length := Nat.pos_of_ne_zero hs
    have hle : s.length ≤ 15 := by
      have hle := length_le_of_readBody h
      rw [length_payload_probeFrame] at hle
      exact Nat.le_trans hle (Nat.le_of_lt_succ s.opcode.isLt)
    have htail : (probeFrame s shapes).bytes.tail = (probeFrame s shapes).second :: (List.replicate 4 0 ++
        Frame.maskFrom (probeFrame s shapes).mask 0 (probeFrame s shapes).payload) := by
      have hraw : rawLen s.length = [] := by
        rw [rawLen, formOf, if_pos (by omega)]
        rfl
      simp [Frame.bytes, probeFrame, hs, hraw]
    rw [htail, List.cons_append, List.append_assoc] at hunmask
    obtain ⟨k, rfl⟩ := Nat.exists_eq_succ_of_ne_zero (Nat.ne_of_gt hm)
    obtain ⟨l, hl⟩ : ∃ l, s.length = l + 1 := Nat.exists_eq_succ_of_ne_zero hs
    have hpayload : (probeFrame s shapes).payload = 1 :: List.replicate l 1 := by
      rw [payload_probeFrame, hl]
      rfl
    have hgrant : ∃ g, Segmented.grant (probeFrame s shapes).opcode.val (Segmented.spend 4 cuts) = g + 1 := by
      refine Nat.exists_eq_succ_of_ne_zero fun hzero => ?_
      rw [hzero, hpayload] at hlen
      cases hlen
    obtain ⟨g, hg⟩ := hgrant
    have hdata : ((probeFrame s shapes).second :: (List.replicate 4 0 ++
        (Frame.maskFrom (probeFrame s shapes).mask 0 (probeFrame s shapes).payload ++ w))).drop (k + 1) =
        0 :: (List.replicate (3 - k) 0 ++
          (Frame.maskFrom (probeFrame s shapes).mask 0 (probeFrame s shapes).payload ++ w)) := by
      have hleft : 5 - (k + 1) = 3 - k + 1 := by omega
      rw [drop_cons_replicate hm hm4, hleft]
      rfl
    rw [hdata, hg, List.take_succ_cons, List.take_succ_cons] at hunmask
    have hhead := unmask_head hunmask
    rw [hpayload, List.head?_cons, UInt8.zero_xor, Option.some.injEq] at hhead
    have hall : ∀ n : Fin 128, (1 : UInt8) ≠ 0x80 ||| UInt8.ofNat n := by decide
    exact hall ⟨_, sevenBits_lt _⟩ hhead

/-- **A mask that was read in part**: the reader does not catch up. -/
theorem not_recovers_lag (shapes : List Shape) {j : ℕ} (hpos : 0 < j) (hle : j ≤ 4) (cuts : List Cut) :
    ¬ Recovers ⟨List.replicate j (lagByte shapes) ++ stream (probe shapes), cuts⟩
      ((probe shapes).map Frame.payload) := by
  induction shapes generalizing j cuts with
  | nil =>
    intro h
    rcases h.inv with ⟨hend, -⟩ | ⟨u, r', ps', -, hps, -⟩
    · have hlen := congrArg List.length hend
      rw [List.length_append, List.length_replicate] at hlen
      simp only [List.length_nil] at hlen
      omega
    · cases hps
  | cons s shapes ih =>
    intro h
    rcases h.inv with ⟨-, hps⟩ | ⟨u, r', ps', hturn, hps, hrec⟩
    · cases hps
    rw [probe, List.map_cons, List.cons.injEq] at hps
    obtain ⟨rfl, rfl⟩ := hps
    obtain ⟨b₀, b₁, rest, hbs, -, hbody⟩ := turn_two hturn
    rw [probe, stream, List.flatMap_cons] at hbs
    obtain ⟨k, rfl⟩ := Nat.exists_eq_succ_of_ne_zero (Nat.ne_of_gt hpos)
    cases k with
    | zero =>
      -- the second byte of the header is the first one of the frame
      have hshape : b₁ = (probeFrame s shapes).first ∧
          rest = (probeFrame s shapes).bytes.tail ++ stream (probe shapes) := by
        have hcons := (List.cons.inj hbs).2
        exact ⟨(List.cons.inj hcons).1.symm, (List.cons.inj hcons).2.symm⟩
      obtain ⟨rfl, rfl⟩ := hshape
      rw [readLength_first] at hbody
      obtain ⟨-, j, cuts', hj, hj4, rfl⟩ := zero_of_lag hbody
      exact ih hj hj4 cuts' hrec
    | succ k =>
      have hshape : b₁ = lagByte (s :: shapes) ∧ 4 < rest.length := by
        have hcons := (List.cons.inj hbs).2
        refine ⟨(List.cons.inj hcons).1.symm, ?_⟩
        have hlen := congrArg List.length (List.cons.inj hcons).2
        simp only [Frame.bytes, probeFrame, List.append_eq, List.length_append, List.length_cons, List.length_nil,
          List.length_replicate] at hlen
        omega
      obtain ⟨rfl, hrest⟩ := hshape
      refine length_ne_of_lag (r := ⟨rest, Segmented.spend 2 cuts⟩) hrest hbody ?_
      exact List.length_replicate

/-- A part of a length gives too little data. -/
theorem grant_length_of_readBody {f : Frame} {cuts : List Cut} {rest : List UInt8} {r' : Reader}
    (h : readBody (readLength f.second ⟨rawLen f.payload.length ++ rest, cuts⟩).1
      (readLength f.second ⟨rawLen f.payload.length ++ rest, cuts⟩).2 = .ok (f.payload, r')) :
    Segmented.grant (formOf f.payload.length).size cuts = (formOf f.payload.length).size := by
  by_contra hne
  have hlt : Segmented.grant (formOf f.payload.length).size cuts < (formOf f.payload.length).size :=
    Nat.lt_of_le_of_ne (Segmented.grant_le _ cuts) hne
  exact absurd (Nat.lt_of_le_of_lt (length_le_of_readBody h) (f.readLength_short hlt rest)) (Nat.lt_irrefl _)

/-- So does a part of the data. -/
theorem grant_data_of_readBody {f : Frame} {cuts : List Cut} {rest : List UInt8} {r' : Reader}
    (hmask : Segmented.grant 4 cuts = 4)
    (h : readBody f.payload.length ⟨f.mask ++ (Frame.maskFrom f.mask 0 f.payload ++ rest), cuts⟩ =
      .ok (f.payload, r')) :
    Segmented.grant f.payload.length (Segmented.spend 4 cuts) = f.payload.length := by
  have hlen := unmask_length (readBody_ok h).1
  rw [Segmented.read_whole hmask f.mask_length] at hlen
  dsimp only [Segmented.read] at hlen
  have hgrant := Segmented.grant_le f.payload.length (Segmented.spend 4 cuts)
  rw [List.length_take] at hlen
  omega

/-- A part of the mask shows, at once or later. -/
theorem grant_mask_of_readBody {s : Shape} {shapes : List Shape} {cuts : List Cut} {r' : Reader}
    (h : readBody (probeFrame s shapes).payload.length ⟨(probeFrame s shapes).mask ++
        (Frame.maskFrom (probeFrame s shapes).mask 0 (probeFrame s shapes).payload ++ stream (probe shapes)), cuts⟩ =
      .ok ((probeFrame s shapes).payload, r'))
    (hrec : Recovers r' ((probe shapes).map Frame.payload)) : Segmented.grant 4 cuts = 4 := by
  rw [length_payload_probeFrame] at h
  obtain ⟨m, hm, hm4, hunmask, rfl, hgrant⟩ := body_parts h
  by_contra hne
  have hlt : m < 4 := by omega
  have hdrop : ∀ (v : UInt8) (w : List UInt8), (List.replicate 4 v ++ w).drop m = List.replicate (4 - m) v ++ w := by
    intro v w
    rw [List.drop_append_of_le_length (by rw [List.length_replicate]; exact hm4), List.drop_replicate]
  by_cases hs : s.length = 0
  · have hmask : (probeFrame s shapes).mask = List.replicate 4 (lagByte shapes) := by
      simp [probeFrame, hs]
    have hpayload : (probeFrame s shapes).payload = [] := by
      rw [payload_probeFrame, hs]
      rfl
    rw [hmask, hpayload, Frame.maskFrom, List.nil_append, hdrop, hs, Segmented.grant_zero, List.drop_zero] at hrec
    exact not_recovers_lag shapes (by omega) (Nat.sub_le 4 m) _ hrec
  · obtain ⟨l, hl⟩ : ∃ l, s.length = l + 1 := Nat.exists_eq_succ_of_ne_zero hs
    obtain ⟨g, hg⟩ : ∃ g, Segmented.grant s.length (Segmented.spend 4 cuts) = g + 1 :=
      Nat.exists_eq_succ_of_ne_zero (Nat.ne_of_gt (Segmented.grant_pos (Nat.pos_of_ne_zero hs) _))
    obtain ⟨k, rfl⟩ := Nat.exists_eq_succ_of_ne_zero (Nat.ne_of_gt hm)
    have hmask : (probeFrame s shapes).mask = List.replicate 4 0 := by
      simp [probeFrame, hs]
    have hpayload : (probeFrame s shapes).payload = 1 :: List.replicate l 1 := by
      rw [payload_probeFrame, hl]
      rfl
    have hleft : 4 - k.succ = 2 - k + 1 := by omega
    have htake : ∀ w : List UInt8, (List.replicate 4 0 ++ w).take k.succ = 0 :: (List.replicate 3 0 ++ w).take k :=
      fun _ => rfl
    have hdata : ∀ w : List UInt8, (List.replicate (2 - k + 1) 0 ++ w).take (g + 1) =
        0 :: (List.replicate (2 - k) 0 ++ w).take g := fun _ => rfl
    rw [hmask, hdrop, hleft, hg, htake, hdata] at hunmask
    have hhead := unmask_head hunmask
    rw [hpayload, List.head?_cons, Option.some.injEq] at hhead
    exact absurd hhead (by decide)

/-- A run on such frames that recovers has made whole reads. -/
theorem aligned_of_recovers {shapes : List Shape} {cuts : List Cut}
    (h : Recovers ⟨stream (probe shapes), cuts⟩ ((probe shapes).map Frame.payload)) :
    Segmented.Aligned (shapes.flatMap Shape.parts) cuts := by
  induction shapes generalizing cuts with
  | nil => trivial
  | cons s shapes ih =>
    rcases h.inv with ⟨-, hps⟩ | ⟨u, r', ps', hturn, hps, hrec⟩
    · cases hps
    rw [probe, List.map_cons, List.cons.injEq] at hps
    obtain ⟨rfl, rfl⟩ := hps
    obtain ⟨b₀, b₁, rest, hbs, hheader, hbody⟩ := turn_two hturn
    have hshape : b₁ = (probeFrame s shapes).second ∧
        rest = rawLen (probeFrame s shapes).payload.length ++ ((probeFrame s shapes).mask ++
          (Frame.maskFrom (probeFrame s shapes).mask 0 (probeFrame s shapes).payload ++ stream (probe shapes))) := by
      have hcons := (List.cons.inj hbs).2
      refine ⟨(List.cons.inj hcons).1.symm, (List.cons.inj hcons).2.symm.trans ?_⟩
      simp [stream, List.flatMap_def]
    obtain ⟨rfl, rfl⟩ := hshape
    have hlength := grant_length_of_readBody hbody
    rw [(probeFrame s shapes).readLength_whole hlength] at hbody
    dsimp only at hbody
    have hmask := grant_mask_of_readBody hbody hrec
    have hdata := grant_data_of_readBody hmask hbody
    rw [(probeFrame s shapes).readBody_whole hmask hdata] at hbody
    cases hbody
    have hrest := ih hrec
    rw [length_payload_probeFrame] at hlength hmask hdata hrest
    exact ⟨hheader, hlength, hmask, hdata, hrest⟩

/-- **When the payloads do not depend on segmentation**: whatever frames of these forms carry is recovered
if and only if no segment ends inside a part of a frame. -/
theorem recovers_iff_whole (shapes : List Shape) (cuts : List Cut) :
    (∀ fs : List Frame, fs.map Frame.shape = shapes → Recovers ⟨stream fs, cuts⟩ (fs.map Frame.payload)) ↔
      Whole shapes cuts := by
  constructor
  · intro h
    exact Segmented.aligned_iff_ends.mp (aligned_of_recovers (h (probe shapes) (shape_probe shapes)))
  · rintro h fs rfl
    exact recovers_of_whole h

/-- A message of one byte. -/
def hello : Frame := ⟨true, 1, [1, 2, 3, 4], [7], rfl, by decide⟩

/-- In one segment it is recovered, and not when its first byte comes alone. -/
theorem split_header_not_recovered :
    Recovers ⟨stream [hello], []⟩ [[7]] ∧ ¬ Recovers ⟨stream [hello], [⟨1, by decide⟩]⟩ [[7]] ∧
      handleWsDashboard ⟨stream [hello], [⟨1, by decide⟩]⟩ = some ([], .shortHeader) := by
  decide

-- half a mask is read as a header whose length is the next header: right by accident
example : Recovers ⟨stream [⟨true, 1, [0, 0, 0, 126], [], rfl, by decide⟩, hello], [⟨4, by decide⟩]⟩ [[], [7]] := by
  decide

end Hawal.Panel.WsReading
