import Mathlib.Data.List.Basic

/-!
# Reading from a segmented byte stream

A stream transport delivers a byte sequence in segments whose boundaries carry no
meaning: a read of at most `cap` bytes returns some of what has arrived, and a
composed read goes on until it has enough.  `readAtLeast k cap` is that composed
read: it takes segments, splitting the last one if the buffer is full, until at
least `k` bytes are in, and stops with fewer only where the stream ends.

`readAtLeast_spec` says all a client may rely on: the bytes come off the front of
the stream, in order, at most `cap` of them, and at least `k` unless the whole
stream is shorter than that.  How many beyond `k` depends on the segmentation,
which is why clients have to be prepared for any number.
-/

namespace ByteStream

/-- What a stream has still to deliver, in the portions it will arrive in. -/
abbrev Segments := List (List UInt8)

/-- Read into a buffer of `cap` bytes until at least `k` have arrived or the stream
ends; the bytes read and the rest of the stream. -/
def readAtLeast (k cap : Nat) : Segments → List UInt8 × Segments
  | [] => ([], [])
  | seg :: segs =>
    if k = 0 then ([], seg :: segs)
    else if seg.length ≤ cap then
      let (bs, rest) := readAtLeast (k - seg.length) (cap - seg.length) segs
      (seg ++ bs, rest)
    else (seg.take cap, seg.drop cap :: segs)

/-- Reading takes bytes off the front of the stream, at most `cap` of them, and at
least `k` unless the stream holds fewer, in which case it takes them all. -/
theorem readAtLeast_spec {k cap : Nat} (h : k ≤ cap) (segs : Segments) :
    (readAtLeast k cap segs).1 ++ (readAtLeast k cap segs).2.flatten = segs.flatten ∧
      (readAtLeast k cap segs).1.length ≤ cap ∧
      (k ≤ (readAtLeast k cap segs).1.length ∨ (readAtLeast k cap segs).2 = []) := by
  induction segs generalizing k cap with
  | nil => simp [readAtLeast]
  | cons seg segs ih =>
      unfold readAtLeast
      split_ifs with hk hfit
      · simp [hk]
      · have hrest : k - seg.length ≤ cap - seg.length := Nat.sub_le_sub_right h _
        obtain ⟨happ, hcap, hend⟩ := ih hrest
        refine ⟨by simp [happ], ?_, ?_⟩
        · simp only [List.length_append]
          omega
        · rcases hend with hend | hend
          · left
            simp only [List.length_append]
            omega
          · exact Or.inr hend
      · refine ⟨by simp [← List.append_assoc], ?_, Or.inl ?_⟩
        · exact List.length_take_le cap seg
        · rw [List.length_take]
          omega

/-- The bytes read are a prefix of the stream. -/
theorem readAtLeast_append {k cap : Nat} (h : k ≤ cap) (segs : Segments) :
    (readAtLeast k cap segs).1 ++ (readAtLeast k cap segs).2.flatten = segs.flatten :=
  (readAtLeast_spec h segs).1

theorem readAtLeast_length_le {k cap : Nat} (h : k ≤ cap) (segs : Segments) :
    (readAtLeast k cap segs).1.length ≤ cap :=
  (readAtLeast_spec h segs).2.1

/-- A read falls short exactly where the stream does. -/
theorem readAtLeast_short_iff {k cap : Nat} (h : k ≤ cap) (segs : Segments) :
    (readAtLeast k cap segs).1.length < k ↔ segs.flatten.length < k := by
  obtain ⟨happ, -, hend⟩ := readAtLeast_spec h segs
  have hlen := congrArg List.length happ
  rw [List.length_append] at hlen
  rcases hend with hend | hend
  · omega
  · rw [hend] at hlen
    simp only [List.flatten_nil, List.length_nil] at hlen
    omega

end ByteStream
