import Hawal.Mux.Delivery

/-!
# No byte is lost

`received_prefix_written` says that nothing but what was written is read. Here is the other half: while the
connection works and the stream is in use at both ends, every byte that was passed to `Write` is somewhere, in its
order. It was read, or is with the stream, in `readLoop`'s hands, in a frame on the wire, or with the `Write` that
holds `writeMu`. So when nothing is on the way, all that was written was read (`nothing_lost`).
-/

namespace Hawal.Mux

open Hawal.Lib Hawal.Transport

namespace Pair

variable {cfg : Config} {p : Pair} {x : Side} {r r' : Ref}

/-- The stream `r` at `x` is in the table, and no push to it was given up; the connection from the other end to `x`
works, and the session there is not closed. -/
structure InUse (p : Pair) (x : Side) (r : Ref) : Prop where
  table : (p x).sess.streams.lookup ((p x).sess.heap r).id = some r
  pushed : (p x).sess.pc .readLoop ≠ .closing ((p x).sess.heap r).id .pushTimeout
  opened : (p x.other).Open
  unclosed : (p x.other).sess.closed = false

instance : Decidable (InUse p x r) :=
  decidable_of_iff (_ ∧ _ ∧ _ ∧ _)
    ⟨fun ⟨h₁, h₂, h₃, h₄⟩ => ⟨h₁, h₂, h₃, h₄⟩, fun h => ⟨h.table, h.pushed, h.opened, h.unclosed⟩⟩

/-- Nothing is on the way to the stream `r` at `x`, which is `r'` at the other end. -/
structure Settled (p : Pair) (x : Side) (r r' : Ref) : Prop where
  read : ((p x).sess.heap r).received = ((p x).sess.heap r).got
  inHand : (p x).sess.inHandOf r = []
  wire : (p x).held ++ (p x.other).wire ++ (p x.other).pending = []
  unsent : (p x.other).sess.unsent r' = []

instance : Decidable (Settled p x r r') :=
  decidable_of_iff (_ ∧ _ ∧ _ ∧ _)
    ⟨fun ⟨h₁, h₂, h₃, h₄⟩ => ⟨h₁, h₂, h₃, h₄⟩, fun h => ⟨h.read, h.inHand, h.wire, h.unsent⟩⟩

namespace Linked

/-- What is with a stream in use, and what is still in hand, is all that has arrived for it. -/
theorem received_eq (h : Linked cfg p) (hr : r < (p x).sess.fresh) (huse : p.InUse x r) :
    ((p x).sess.heap r).received ++ (p x).sess.inHandOf r = dataOf ((p x).sess.heap r).id (p x).sess.rcvd := by
  have hsplit := congrArg (dataOf ((p x).sess.heap r).id)
    (List.take_append_drop ((p x).sess.heap r).since (p x).sess.rcvd)
  rw [dataOf_append, h.untouched hr, List.nil_append] at hsplit
  rw [(h.sound x).dispatched.whole huse.table huse.pushed, hsplit]

/-- The frames on the wire, of a connection that works: what was sent is what has arrived, and these. -/
theorem flight_eq (h : Linked cfg p) (x : Side) (hopen : (p x.other).Open) : ∃ calls : List WriteCall,
    (p x).held ++ (p x.other).wire ++ (p x.other).pending = (framing cfg.crypto).puts calls ∧
      (p x.other).sess.sent = (p x).sess.rcvd ++ calls.map WriteCall.frame := by
  have hcarried := h.carried x.other
  obtain ⟨done, calls, hcalls, hrcvd, -, -, hwire⟩ := hcarried.flight
  rw [Side.other_other] at hrcvd hwire
  refine ⟨calls, hwire hopen, ?_⟩
  rw [← hcarried.frames, hcalls, List.map_append, hrcvd]

end Linked

/-- **No byte is lost.** In every reachable state, what was passed to `Write` on a stream in use is, in this order,
what was read at the other end, what waits there in `readBuf` and `readChan`, what `readLoop` has in its hands, the
data in the frames on the wire, and what the holder of `writeMu` has still to send. When nothing of this is on the
way, all of it was read. -/
theorem nothing_lost {es : List Event} (h : exec (step cfg) newPair es = some p) (hb : Bounded p)
    (hsame : p.Same x r r') (huse : p.InUse x r) :
    (∃ calls : List WriteCall,
      (p x).held ++ (p x.other).wire ++ (p x.other).pending = (framing cfg.crypto).puts calls ∧
      ((p x.other).sess.heap r').put = ((p x).sess.heap r).received ++ (p x).sess.inHandOf r ++
        dataOf ((p x).sess.heap r).id (calls.map WriteCall.frame) ++ (p x.other).sess.unsent r') ∧
    (p.Settled x r r' → ((p x).sess.heap r).got = ((p x.other).sess.heap r').put) := by
  have hl := exec_newPair_linked h hb.roomy
  obtain ⟨hr, hr', hid⟩ := hsame
  obtain ⟨calls, hwire, hsent⟩ := hl.flight_eq x huse.opened
  have hput := (hl.sound x.other).written.whole ((hl.carried x.other).whole huse.opened) huse.unclosed r' hr'
  rw [← hid, hsent, dataOf_append, ← hl.received_eq hr huse] at hput
  refine ⟨⟨calls, hwire, hput.symm⟩, fun hsettled => ?_⟩
  have hnone : calls = [] := by
    cases calls with
    | nil => rfl
    | cons c calls =>
      rw [hsettled.wire, Framing.puts_cons] at hwire
      obtain ⟨m, hm⟩ := (framing cfg.crypto).get_nil
      rw [← (List.append_eq_nil_iff.mp hwire.symm).1] at hm
      exact absurd hm ((framing cfg.crypto).get_put_ne_short c m)
  rw [← hput, hnone, hsettled.read, hsettled.inHand, hsettled.unsent]
  simp

/-- The server writes two bytes to a stream, and the client reads them one by one. -/
def settledRun : List Event :=
  deliveredRun ++ [.act .server (.unlock (.app 0)), .act .client (.read (.app 0) 0 8)]

theorem settledRun_read : ∃ p, exec (step (sampleConfig 100)) newPair settledRun = some p ∧
    ((p .server).sess.heap 0).put = [7, 8] ∧ ((p .client).sess.heap 0).got = ((p .server).sess.heap 0).put := by
  obtain ⟨p, hp, hput, hb, hsame, huse, hsettled⟩ := exists_of_any (P := fun p : Pair =>
      ((p .server).sess.heap 0).put = [7, 8] ∧
        ((p .server).sess.opens < 2 ^ 31 ∧ (p .client).sess.opens < 2 ^ 31) ∧
        (0 < (p .client).sess.fresh ∧ 0 < (p .server).sess.fresh ∧
          ((p .client).sess.heap 0).id = ((p .server).sess.heap 0).id) ∧
        p.InUse .client 0 ∧ p.Settled .client 0 0)
    (show (exec (step (sampleConfig 100)) newPair settledRun).any _ = true by decide +kernel)
  exact ⟨p, hp, hput, (nothing_lost hp (bounded_of_sides hb) hsame huse).2 hsettled⟩

end Pair

end Hawal.Mux
