import Tntpp.Detail.Reading
import Tntpp.Detail.Reassembly

/-!
# What a receiver cannot see

How the bytes of a connection are cut into segments, how large the receive buffer is and what
it has held before are not visible in what `receive_message` completes with, whatever the
bytes are: frames, payloads that cannot be decoded, prefixes that are no lengths, or the
beginning of any of these.

`Same` relates two framings between which a receiver cannot tell.  Every function keeps it
(`Agree`), until the connection ends: a read that falls short loses the bytes it has got, and
how many these are does depend on the segments.  The receive loop reads nothing after an
error, so the comparison is made over what it does receive, `life`.
-/

namespace Tntpp

open MsgPack (Codec)

namespace IprotoFraming

/-- The same bytes are pending, and the connections end with the same error. -/
structure Same (s t : IprotoFraming) : Prop where
  /-- The bytes. -/
  pending : s.pending = t.pending
  /-- The error. -/
  error : s.nextLayer.error = t.nextLayer.error

/-- Two calls end alike: with a failed assertion, with the same error, or with the same
result, in states that are the same.  `see` is what is visible of a result. -/
inductive Agree {α β : Type} (see : IprotoFraming → α → β) :
    Option ((ErrorCode × α) × IprotoFraming) → Option ((ErrorCode × α) × IprotoFraming) → Prop where
  /-- An assertion has failed. -/
  | aborted : Agree see none none
  /-- With an error. -/
  | failed {ec : ErrorCode} {a b : α} {s t : IprotoFraming} (hec : ec.failed = true)
    (hsee : see s a = see t b) : Agree see (some ((ec, a), s)) (some ((ec, b), t))
  /-- With a result. -/
  | completed {a b : α} {s t : IprotoFraming} (hsee : see s a = see t b) (h : Same s t) :
    Agree see (some (({}, a), s)) (some (({}, b), t))

variable {s t : IprotoFraming}

/-! ## Reading -/

/-- The size and the bytes of a frozen buffer. -/
abbrev seeBuffer (s : IprotoFraming) (f : FrozenBuffer) : Nat × List UInt8 :=
  (f.size, s.buffer.view f)

theorem transferExactly_agree (h : Same s t) (n : Nat) :
    Agree seeBuffer (s.transferExactly n) (t.transferExactly n) := by
  rcases Nat.lt_or_ge s.pending.length n with hn | hn
  · obtain ⟨s', hs', -⟩ := transferExactly_short hn
    obtain ⟨t', ht', -⟩ := transferExactly_short (h.pending ▸ hn)
    rw [hs', ht', ← h.error]
    exact .failed s.nextLayer.failed_error rfl
  · obtain ⟨f, s', hs', hsize, -, hv, hp, hc⟩ := transferExactly_spec hn
    obtain ⟨g, t', ht', hsize', -, hv', hp', hc'⟩ := transferExactly_spec (h.pending ▸ hn)
    rw [hs', ht']
    refine .completed ?_ ⟨?_, ?_⟩
    · rw [seeBuffer, seeBuffer, hsize, hsize', hv, hv', h.pending]
    · rw [hp, hp', h.pending]
    · rw [hc.error_eq, hc'.error_eq, h.error]

/-- What is visible of what a call in two parts completes with is determined by what is
visible of the first part, if the second part looks at nothing else. -/
theorem Agree.andThen {α β α' β' : Type} {see : IprotoFraming → α → β}
    {see' : IprotoFraming → α' → β'} {x y : Call α} (h : Agree see x y) {d : α'}
    {k l : α → IprotoFraming → Call α'} (hd : ∀ s t, see' s d = see' t d)
    (hk : ∀ a b s t, see s a = see t b → Same s t → Agree see' (k a s) (l b t)) :
    Agree see' (andThen x d k) (andThen y d l) := by
  cases h with
  | aborted => exact .aborted
  | @failed ec a b s t hec hsee =>
      have hx : IprotoFraming.andThen (some ((ec, a), s)) d k = some ((ec, d), s) := if_pos hec
      have hy : IprotoFraming.andThen (some ((ec, b), t)) d l = some ((ec, d), t) := if_pos hec
      rw [hx, hy]
      exact .failed hec (hd s t)
  | completed hsee h => exact hk _ _ _ _ hsee h

/-- A condition that does not depend on the states makes no difference. -/
theorem Agree.ite {α β : Type} {see : IprotoFraming → α → β} {x x' y y' : Call α} {c : Prop}
    [Decidable c] (h : Agree see x y) (h' : Agree see x' y') :
    Agree see (if c then x else x') (if c then y else y') := by
  split
  · exact h
  · exact h'

/-- The number is all there is to see of a length. -/
abbrev seeLength (_ : IprotoFraming) (n : SizeType) : SizeType := n

theorem readUnsigned_agree (h : Same s t) (w : Nat) :
    Agree seeLength (s.readUnsigned w) (t.readUnsigned w) := by
  rw [readUnsigned_andThen, readUnsigned_andThen]
  refine (transferExactly_agree h w).andThen (fun _ _ ↦ rfl) fun f g s t hsee h ↦ ?_
  rw [(Prod.mk.inj hsee).2]
  exact .completed rfl h

theorem checkLength_agree (h : Same s t) (result : Int) :
    Agree seeLength (some (checkLength result s)) (some (checkLength result t)) := by
  rw [checkLength, checkLength]
  split_ifs
  · exact .failed rfl rfl
  · exact .completed rfl h

theorem readSigned_agree (h : Same s t) (w : Nat) :
    Agree seeLength (s.readSigned w) (t.readSigned w) := by
  rw [readSigned_andThen, readSigned_andThen]
  refine (transferExactly_agree h w).andThen (fun _ _ ↦ rfl) fun f g s t hsee h ↦ ?_
  rw [(Prod.mk.inj hsee).2]
  exact checkLength_agree h _

theorem readLengthOf_agree (h : Same s t) (type : UInt8) :
    Agree seeLength (readLengthOf type s) (readLengthOf type t) := by
  rw [readLengthOf, readLengthOf]
  repeat' apply Agree.ite
  · exact .completed rfl h
  all_goals first
    | exact readUnsigned_agree h _
    | exact readSigned_agree h _
    | exact checkLength_agree h _

theorem readMessageLength_agree (h : Same s t) :
    Agree seeLength s.readMessageLength t.readMessageLength := by
  rw [readMessageLength_andThen, readMessageLength_andThen]
  refine (transferExactly_agree h 1).andThen (fun _ _ ↦ rfl) fun f g s t hsee h ↦ ?_
  rw [(Prod.mk.inj hsee).2]
  exact readLengthOf_agree h _

/-- The header and the body of a frame. -/
abbrev seeFrame (s : IprotoFraming) (f : IprotoFrame FrozenBuffer) : MessageHeader × List UInt8 :=
  (f.header, s.buffer.view f.body)

/-- Slices of buffers that look the same look the same. -/
theorem slice_agree (h : Same s t) {f g : FrozenBuffer} (hsee : seeBuffer s f = seeBuffer t g)
    (header : MessageHeader) (offset : Nat) :
    Agree seeFrame ((f.slice offset).map fun body ↦ (({}, ⟨header, body⟩), s))
      ((g.slice offset).map fun body ↦ (({}, ⟨header, body⟩), t)) := by
  obtain ⟨hsize, hview⟩ := Prod.mk.inj hsee
  by_cases hoffset : offset < f.size
  · obtain ⟨f', hf', -, hvf, -⟩ := FrozenBuffer.slice_spec hoffset s.buffer
    obtain ⟨g', hg', -, hvg, -⟩ := FrozenBuffer.slice_spec (hsize ▸ hoffset) t.buffer
    rw [hf', hg']
    refine .completed ?_ h
    rw [seeFrame, seeFrame, hvf, hvg, hview]
  · have hf : f.slice offset = none := if_neg hoffset
    have hg : g.slice offset = none := if_neg (hsize ▸ hoffset)
    rw [hf, hg]
    exact .aborted

theorem ofPayload_agree (mp : Codec) (h : Same s t) {f g : FrozenBuffer}
    (hsee : seeBuffer s f = seeBuffer t g) (payload : List UInt8) :
    Agree seeFrame (ofPayload mp payload f s) (ofPayload mp payload g t) := by
  rw [ofPayload, ofPayload]
  cases mp.unpack payload with
  | none => exact .failed rfl rfl
  | some r =>
      dsimp only
      cases convertHeader r.1 with
      | none => exact .failed rfl rfl
      | some header => exact slice_agree h hsee header r.2

theorem receiveMessage_agree (mp : Codec) (h : Same s t) :
    Agree seeFrame (s.receiveMessage mp) (t.receiveMessage mp) := by
  rw [receiveMessage_andThen, receiveMessage_andThen]
  refine (readMessageLength_agree h).andThen (fun _ _ ↦ rfl) fun n n' s t hn h ↦ ?_
  obtain rfl : n = n' := hn
  refine (transferExactly_agree h n.toNat).andThen (fun _ _ ↦ rfl) fun f g s t hsee h ↦ ?_
  rw [(Prod.mk.inj hsee).2]
  exact ofPayload_agree mp h hsee _

/-! ## What a call leaves -/

/-- What a call does to the connection: frozen buffers are kept, and without an error bytes
were only taken off the front. -/
structure Advances (s s' : IprotoFraming) (ec : ErrorCode) : Prop where
  /-- What was frozen stays frozen. -/
  continues : Continues s s'
  /-- What is pending is the rest of what was. -/
  suffix : ec.failed = false → s'.pending <:+ s.pending

/-- What `transfer_exactly` gives is frozen, and no longer pending. -/
theorem transferExactly_advances {n : Nat} {ec : ErrorCode} {f : FrozenBuffer} {s' : IprotoFraming}
    (h : s.transferExactly n = some ((ec, f), s')) :
    Advances s s' ec ∧ s'.buffer.Frozen f ∧
      (ec.failed = false → s'.pending.length + n = s.pending.length) := by
  rcases Nat.lt_or_ge s.pending.length n with hn | hn
  · obtain ⟨t, ht, hc⟩ := transferExactly_short hn
    cases h.symm.trans ht
    have hfailed := s.nextLayer.failed_error
    refine ⟨⟨hc, fun hec ↦ ?_⟩, fun i hi ↦ (Option.some_ne_none i hi.symm).elim, fun hec ↦ ?_⟩
    · cases hec.symm.trans hfailed
    · cases hec.symm.trans hfailed
  · obtain ⟨g, t, ht, -, hf, -, hp, hc⟩ := transferExactly_spec hn
    cases h.symm.trans ht
    refine ⟨⟨hc, fun _ ↦ hp ▸ List.drop_suffix n _⟩, hf, fun _ ↦ ?_⟩
    rw [hp, List.length_drop]
    exact Nat.sub_add_cancel hn

/-- Calls in succession take more and more off the front. -/
theorem sequential_advances : Sequential (fun _ ↦ True) Advances where
  done _ _ _ := ⟨⟨.refl _, rfl⟩, fun _ ↦ List.suffix_rfl⟩
  trans h h' := ⟨h.continues.trans h'.continues, fun hec ↦ (h'.suffix hec).trans (h.suffix rfl)⟩
  transfer _ h := (transferExactly_advances h).1

section

variable {ec : ErrorCode} {s' : IprotoFraming}

/-- Reading a length takes at least one byte. -/
theorem readMessageLength_less {n : SizeType} (h : s.readMessageLength = some ((ec, n), s'))
    (hec : ec.failed = false) : s'.pending.length < s.pending.length := by
  rw [readMessageLength_andThen] at h
  rcases andThen_cases h with ⟨_, -, hfailed, -⟩ | ⟨ec₁, f, t, ht, hec₁, hrest⟩
  · cases hec.symm.trans hfailed
  · obtain ⟨-, -, hone⟩ := transferExactly_advances ht
    obtain ⟨-, hadvances⟩ :=
      sequential_advances.along_readLengthOf (fun _ _ ↦ trivial) _ _ _ _ hrest
    have hle := (hadvances.suffix hec).length_le
    rw [← hone hec₁]
    exact Nat.lt_succ_of_le hle

/-- What is decoded of a payload is the header and a part of the payload, or nothing. -/
theorem ofPayload_frozen {mp : Codec} {payload : List UInt8} {f : FrozenBuffer}
    {frame : IprotoFrame FrozenBuffer} (h : ofPayload mp payload f s = some ((ec, frame), s')) :
    s' = s ∧ (s.buffer.Frozen f → s.buffer.Frozen frame.body) := by
  have hnone : s.buffer.Frozen {} := fun i hi ↦ (Option.some_ne_none i hi.symm).elim
  rw [ofPayload] at h
  cases hunpack : mp.unpack payload with
  | none =>
      rw [hunpack] at h
      cases h
      exact ⟨rfl, fun _ ↦ hnone⟩
  | some r =>
      rw [hunpack] at h
      dsimp only at h
      cases hconvert : convertHeader r.1 with
      | none =>
          rw [hconvert] at h
          cases h
          exact ⟨rfl, fun _ ↦ hnone⟩
      | some header =>
          rw [hconvert] at h
          obtain ⟨body, hbody, heq⟩ := Option.map_eq_some_iff.mp h
          cases heq
          have hoffset : r.2 < f.size := by
            by_contra hle
            cases hbody.symm.trans (if_neg hle)
          obtain ⟨body', hbody', -, -, hfrozen⟩ := FrozenBuffer.slice_spec hoffset s.buffer
          cases hbody.symm.trans hbody'
          exact ⟨rfl, hfrozen⟩

/-- Receiving a message keeps the bodies of all others, and takes at least one byte. -/
theorem receiveMessage_advances {mp : Codec} {frame : IprotoFrame FrozenBuffer}
    (h : s.receiveMessage mp = some ((ec, frame), s')) :
    Advances s s' ec ∧ s'.buffer.Frozen frame.body ∧
      (ec.failed = false → s'.pending.length < s.pending.length) := by
  obtain ⟨-, hadvances⟩ := sequential_advances.along_receiveMessage mp (fun _ _ ↦ trivial)
    (fun _ _ _ ↦ trivial) _ _ _ h
  have hnone : s'.buffer.Frozen {} := fun i hi ↦ (Option.some_ne_none i hi.symm).elim
  refine ⟨hadvances, ?_⟩
  rw [receiveMessage_andThen] at h
  rcases andThen_cases h with ⟨_, -, hec, rfl⟩ | ⟨ec₁, n, s₁, h₁, hec₁, h⟩
  · exact ⟨hnone, fun hok ↦ absurd (hok.symm.trans hec) Bool.false_ne_true⟩
  have hless := readMessageLength_less h₁ hec₁
  rcases andThen_cases h with ⟨_, -, hec, rfl⟩ | ⟨ec₂, f, s₂, h₂, hec₂, h⟩
  · exact ⟨hnone, fun hok ↦ absurd (hok.symm.trans hec) Bool.false_ne_true⟩
  obtain ⟨hadvances₂, hfrozen, -⟩ := transferExactly_advances h₂
  obtain ⟨rfl, hbody⟩ := ofPayload_frozen h
  exact ⟨hbody hfrozen, fun _ ↦ Nat.lt_of_le_of_lt (hadvances₂.suffix hec₂).length_le hless⟩

end

/-! ## The life of a connection -/

/-- What the receive loop gets of one connection: messages until one fails, and the state it
is left in then; `none` is a failed assertion. -/
def life (mp : Codec) : Nat → IprotoFraming → List Delivery × Option IprotoFraming
  | 0, s => ([], some s)
  | n + 1, s =>
      match s.receiveMessage mp with
      | none => ([], none)
      | some ((ec, frame), s) =>
          if ec.failed then ([⟨ec, frame, s.buffer.view frame.body⟩], some s)
          else
            let (ds, r) := life mp n s
            (⟨ec, frame, s.buffer.view frame.body⟩ :: ds, r)

/-- A life has ended: with an assertion, or with an error. -/
def Ended (r : List Delivery × Option IprotoFraming) : Prop :=
  r.2 = none ∨ ∃ d ∈ r.1, d.ec.failed = true

section

variable {mp : Codec}

theorem life_of_none (h : s.receiveMessage mp = none) (n : Nat) :
    life mp (n + 1) s = ([], none) := by
  rw [life, h]

theorem life_of_failed {ec : ErrorCode} {frame : IprotoFrame FrozenBuffer} {s' : IprotoFraming}
    (h : s.receiveMessage mp = some ((ec, frame), s')) (hec : ec.failed = true) (n : Nat) :
    life mp (n + 1) s = ([⟨ec, frame, s'.buffer.view frame.body⟩], some s') := by
  rw [life, h]
  dsimp only
  rw [if_pos hec]

theorem life_of_ok {ec : ErrorCode} {frame : IprotoFrame FrozenBuffer} {s' : IprotoFraming}
    (h : s.receiveMessage mp = some ((ec, frame), s')) (hec : ec.failed = false) (n : Nat) :
    life mp (n + 1) s =
      (⟨ec, frame, s'.buffer.view frame.body⟩ :: (life mp n s').1, (life mp n s').2) := by
  rw [life, h]
  dsimp only
  rw [if_neg (Bool.eq_false_iff.mp hec)]

/-- States that are the same have the same life. -/
theorem life_agree (h : Same s t) (n : Nat) :
    (life mp n s).1.map Delivery.outcome = (life mp n t).1.map Delivery.outcome ∧
      ((life mp n s).2 = none ↔ (life mp n t).2 = none) := by
  induction n generalizing s t with
  | zero => exact ⟨rfl, iff_of_false (Option.some_ne_none _) (Option.some_ne_none _)⟩
  | succ n ih =>
      have hagree := receiveMessage_agree mp h
      rcases hs : s.receiveMessage mp with _ | ⟨⟨ec, frame⟩, s'⟩
      · rw [hs] at hagree
        generalize ht : t.receiveMessage mp = y at hagree
        cases hagree
        rw [life_of_none hs, life_of_none ht]
        exact ⟨rfl, Iff.rfl⟩
      · rw [hs] at hagree
        generalize ht : t.receiveMessage mp = y at hagree
        cases hagree with
        | failed hec hsee =>
            obtain ⟨hheader, hbody⟩ := Prod.mk.inj hsee
            rw [life_of_failed hs hec, life_of_failed ht hec]
            refine ⟨?_, iff_of_false (Option.some_ne_none _) (Option.some_ne_none _)⟩
            rw [List.map_singleton, List.map_singleton, Delivery.outcome, Delivery.outcome]
            dsimp only
            rw [hheader, hbody]
        | completed hsee h' =>
            obtain ⟨hheader, hbody⟩ := Prod.mk.inj hsee
            obtain ⟨houtcomes, hend⟩ := ih h'
            rw [life_of_ok hs rfl, life_of_ok ht rfl]
            refine ⟨?_, hend⟩
            rw [List.map_cons, List.map_cons, houtcomes, Delivery.outcome, Delivery.outcome]
            dsimp only
            rw [hheader, hbody]

/-- Every body reads at the end as it did when it was delivered. -/
theorem life_settled (n : Nat) {s' : IprotoFraming} (h : (life mp n s).2 = some s') :
    (∀ d ∈ (life mp n s).1, s'.Settled d) ∧ s.buffer.Keeps s'.buffer := by
  induction n generalizing s with
  | zero =>
      cases h
      exact ⟨fun d hd ↦ absurd hd List.not_mem_nil, .refl _⟩
  | succ n ih =>
      rcases hs : s.receiveMessage mp with _ | ⟨⟨ec, frame⟩, s₁⟩
      · rw [life_of_none hs] at h
        cases h
      · obtain ⟨hadvances, hfrozen, -⟩ := receiveMessage_advances hs
        have hkeeps := hadvances.continues.keeps
        cases hec : ec.failed with
        | true =>
            rw [life_of_failed hs hec] at h ⊢
            cases h
            exact ⟨List.forall_mem_singleton.mpr ⟨hfrozen, rfl⟩, hkeeps⟩
        | false =>
            rw [life_of_ok hs hec] at h ⊢
            obtain ⟨hsettled, hkeeps'⟩ := ih h
            refine ⟨List.forall_mem_cons.mpr ⟨?_, hsettled⟩, hkeeps.trans hkeeps'⟩
            exact Settled.keeps ⟨hfrozen, rfl⟩ hkeeps'

/-- A connection ends: as every message takes a byte, it is over after one call more than
there are bytes. -/
theorem life_ended {n : Nat} (h : s.pending.length < n) : Ended (life mp n s) := by
  induction n generalizing s with
  | zero => exact absurd h (Nat.not_lt_zero _)
  | succ n ih =>
      rcases hs : s.receiveMessage mp with _ | ⟨⟨ec, frame⟩, s₁⟩
      · rw [life_of_none hs]
        exact .inl rfl
      · obtain ⟨-, -, hless⟩ := receiveMessage_advances hs
        cases hec : ec.failed with
        | true =>
            rw [life_of_failed hs hec]
            exact .inr ⟨_, List.mem_singleton.mpr rfl, hec⟩
        | false =>
            rw [life_of_ok hs hec]
            have hless' := hless hec
            refine (ih (by omega)).imp_right ?_
            rintro ⟨d, hd, hfailed⟩
            exact ⟨d, List.mem_cons_of_mem _ hd, hfailed⟩

end

/-- Two connections that deliver the same bytes and end with the same error have the same
life, whatever the bytes, their segments, the sizes of the receive buffers and what these
have held before.  It ends, and without a failed assertion every body still reads as it did
when it was delivered. -/
theorem life_unobservable (mp : Codec) (s t : IprotoFraming) (stream stream' : AsyncReadStream)
    (hbytes : stream.segments.flatten = stream'.segments.flatten)
    (herror : stream.error = stream'.error) (n : Nat)
    (hn : stream.segments.flatten.length < n) :
    (life mp n (s.reconnect stream)).1.map Delivery.outcome =
        (life mp n (t.reconnect stream')).1.map Delivery.outcome ∧
      ((life mp n (s.reconnect stream)).2 = none ↔ (life mp n (t.reconnect stream')).2 = none) ∧
      Ended (life mp n (s.reconnect stream)) ∧
      ∀ s', (life mp n (s.reconnect stream)).2 = some s' →
        ∀ d ∈ (life mp n (s.reconnect stream)).1, s'.buffer.view d.frame.body = d.body := by
  have hsame : Same (s.reconnect stream) (t.reconnect stream') := by
    refine ⟨?_, herror⟩
    rw [pending_reconnect, pending_reconnect, hbytes]
  obtain ⟨houtcomes, hend⟩ := life_agree hsame n
  refine ⟨houtcomes, hend, life_ended (by rwa [pending_reconnect]), fun s' hs' d hd ↦ ?_⟩
  exact ((life_settled n hs').1 d hd).2

/-- A frame and a byte that is none, in two segments and in one, after nothing and after
two bytes that were left. -/
theorem life_unobservable_two :
    (life .reference 11
        ((⟨⟨[], ⟨2, .asio⟩, rfl⟩, MutableBuffer.new 0⟩ : IprotoFraming).reconnect
          ⟨[[0xce, 0, 0], [0, 4, 0x81, 0, 0, 0x80, 0xc1]], ⟨2, .asio⟩, rfl⟩)).1.map
            Delivery.outcome =
      (life .reference 11
        ((⟨⟨[[1, 2]], ⟨2, .asio⟩, rfl⟩, MutableBuffer.new 64⟩ : IprotoFraming).reconnect
          ⟨[[0xce, 0, 0, 0, 4, 0x81, 0, 0, 0x80, 0xc1]], ⟨2, .asio⟩, rfl⟩)).1.map
            Delivery.outcome :=
  (life_unobservable .reference ⟨⟨[], ⟨2, .asio⟩, rfl⟩, MutableBuffer.new 0⟩
    ⟨⟨[[1, 2]], ⟨2, .asio⟩, rfl⟩, MutableBuffer.new 64⟩
    ⟨[[0xce, 0, 0], [0, 4, 0x81, 0, 0, 0x80, 0xc1]], ⟨2, .asio⟩, rfl⟩
    ⟨[[0xce, 0, 0, 0, 4, 0x81, 0, 0, 0x80, 0xc1]], ⟨2, .asio⟩, rfl⟩ rfl rfl 11 (by decide)).1

end IprotoFraming

end Tntpp
