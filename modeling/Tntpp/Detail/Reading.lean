import Tntpp.Detail.Payload

/-!
# Reading in succession

The functions of the framing layer have one shape: read some bytes, pass the error on if that
failed, and go on with the bytes otherwise.  `andThen` is that shape, and the functions are
instances of it.

So what is said of a call by a relation between the state before it, the state after it and
the error code it completes with follows for all of them from what it says of
`transfer_exactly`, if it holds of calls in succession.  `Sequential` is the condition and
`Along` the conclusion.
-/

namespace Tntpp

open BigEndian
open MsgPack (Codec)

namespace IprotoFraming

/-- What a call completes with, and the state it leaves; `none` is a failed assertion. -/
abbrev Call (α : Type) : Type := Option ((ErrorCode × α) × IprotoFraming)

variable {α β : Type}

/-- Go on with a result; pass on an error, with `d` in place of a result. -/
def andThen (x : Call α) (d : β) (k : α → IprotoFraming → Call β) : Call β :=
  x.bind fun r ↦ if r.1.1.failed then some ((r.1.1, d), r.2) else k r.1.2 r.2

/-! ## The functions -/

section

variable (s : IprotoFraming)

theorem readUnsigned_andThen (w : Nat) :
    s.readUnsigned w =
      andThen (s.transferExactly w) 0 fun f t ↦
        some (({}, .ofNat (value (t.buffer.view f))), t) :=
  rfl

theorem readSigned_andThen (w : Nat) :
    s.readSigned w =
      andThen (s.transferExactly w) 0 fun f t ↦
        some (checkLength (signedValue (t.buffer.view f)) t) :=
  rfl

theorem readMessageLength_andThen :
    s.readMessageLength =
      andThen (s.transferExactly 1) 0 fun f t ↦
        readLengthOf (.ofNat (value (t.buffer.view f))) t :=
  rfl

theorem receiveMessage_andThen (mp : Codec) :
    s.receiveMessage mp =
      andThen s.readMessageLength ⟨{}, {}⟩ fun n t ↦
        andThen (t.transferExactly n.toNat) ⟨{}, {}⟩ fun f u ↦
          ofPayload mp (u.buffer.view f) f u := by
  refine congrArg (Option.bind s.readMessageLength) (funext fun r ↦ ?_)
  refine if_congr Iff.rfl rfl (congrArg (Option.bind _) (funext fun r' ↦ ?_))
  refine if_congr Iff.rfl rfl ?_
  show _ = ofPayload mp (r'.2.buffer.view r'.1.2) r'.1.2 r'.2
  rw [ofPayload]
  cases mp.unpack (r'.2.buffer.view r'.1.2) with
  | none => rfl
  | some unpacked =>
      dsimp only
      cases convertHeader unpacked.1 with
      | none => rfl
      | some header => exact Option.map_eq_bind.symm

end

/-! ## What holds along a call -/

/-- A relation that holds of calls made in succession, of calls that read nothing, and of
`transfer_exactly` for the lengths in `W`. -/
structure Sequential (W : Nat → Prop)
    (R : IprotoFraming → IprotoFraming → ErrorCode → Prop) : Prop where
  /-- Nothing is read. -/
  done : ∀ s ec, ec.failed = true ∨ ec = {} → R s s ec
  /-- One call succeeds and another follows. -/
  trans : ∀ {s t u ec}, R s t {} → R t u ec → R s u ec
  /-- The bytes are read. -/
  transfer : ∀ {s s' w ec f}, W w → s.transferExactly w = some ((ec, f), s') → R s s' ec

/-- A call that starts in `s` keeps to `R`. -/
def Along (R : IprotoFraming → IprotoFraming → ErrorCode → Prop) (s : IprotoFraming)
    (x : Call α) : Prop :=
  ∀ ec a s', x = some ((ec, a), s') → (ec.failed = true ∨ ec = {}) ∧ R s s' ec

variable {W : Nat → Prop} {R : IprotoFraming → IprotoFraming → ErrorCode → Prop}
  {s : IprotoFraming}

theorem transferExactly_ok {n : Nat} {ec : ErrorCode} {f : FrozenBuffer} {s' : IprotoFraming}
    (h : s.transferExactly n = some ((ec, f), s')) : ec.failed = true ∨ ec = {} := by
  rcases Nat.lt_or_ge s.pending.length n with hn | hn
  · obtain ⟨t, ht, -⟩ := transferExactly_short hn
    cases h.symm.trans ht
    exact Or.inl s.nextLayer.failed_error
  · obtain ⟨g, t, ht, -⟩ := transferExactly_spec hn
    cases h.symm.trans ht
    exact Or.inr rfl

/-- A call in two parts has completed with the error of the first part, or with what the
second part completes with. -/
theorem andThen_cases {x : Call α} {d : β} {k : α → IprotoFraming → Call β} {ec : ErrorCode}
    {b : β} {s' : IprotoFraming} (h : andThen x d k = some ((ec, b), s')) :
    (∃ a, x = some ((ec, a), s') ∧ ec.failed = true ∧ b = d) ∨
      ∃ ec₁ a t, x = some ((ec₁, a), t) ∧ ec₁.failed = false ∧ k a t = some ((ec, b), s') := by
  obtain ⟨⟨⟨ec₁, a⟩, t⟩, hx, hk⟩ := Option.bind_eq_some_iff.mp h
  dsimp only at hk
  split_ifs at hk with hec
  · cases hk
    exact Or.inl ⟨a, hx, hec, rfl⟩
  · exact Or.inr ⟨ec₁, a, t, hx, Bool.eq_false_iff.mpr hec, hk⟩

theorem Along.ite {c : Prop} [Decidable c] {x y : Call α} (hx : Along R s x) (hy : Along R s y) :
    Along R s (if c then x else y) := by
  split
  · exact hx
  · exact hy

namespace Sequential

variable (hR : Sequential W R)
include hR

theorem along_done {ec : ErrorCode} {a : α} (hec : ec.failed = true ∨ ec = {}) :
    Along R s (some ((ec, a), s)) := by
  intro ec' a' s' h
  cases h
  exact ⟨hec, hR.done s ec hec⟩

theorem along_transferExactly {w : Nat} (hw : W w) : Along R s (s.transferExactly w) :=
  fun _ _ _ h ↦ ⟨transferExactly_ok h, hR.transfer hw h⟩

theorem along_andThen {x : Call α} {d : β} {k : α → IprotoFraming → Call β} (hx : Along R s x)
    (hk : ∀ a t, x = some (({}, a), t) → Along R t (k a t)) : Along R s (andThen x d k) := by
  intro ec b s' h
  rcases andThen_cases h with ⟨a, ha, -, -⟩ | ⟨ec₁, a, t, ha, hec₁, hb⟩
  · exact hx ec a s' ha
  · obtain ⟨hok, hst⟩ := hx ec₁ a t ha
    obtain rfl : ec₁ = {} := hok.resolve_left (Bool.eq_false_iff.mp hec₁)
    obtain ⟨hec, hts'⟩ := hk a t ha ec b s' hb
    exact ⟨hec, hR.trans hst hts'⟩

theorem along_checkLength (result : Int) : Along R s (some (checkLength result s)) := by
  rw [checkLength]
  split_ifs
  · exact hR.along_done (Or.inl rfl)
  · exact hR.along_done (Or.inr rfl)

theorem along_readUnsigned {w : Nat} (hw : W w) : Along R s (s.readUnsigned w) := by
  rw [readUnsigned_andThen]
  exact hR.along_andThen (hR.along_transferExactly hw) fun _ _ _ ↦ hR.along_done (Or.inr rfl)

theorem along_readSigned {w : Nat} (hw : W w) : Along R s (s.readSigned w) := by
  rw [readSigned_andThen]
  exact hR.along_andThen (hR.along_transferExactly hw) fun _ _ _ ↦ hR.along_checkLength _

theorem along_readLengthOf (hW : ∀ w ≤ 8, W w) (type : UInt8) :
    Along R s (readLengthOf type s) := by
  rw [readLengthOf]
  repeat' apply Along.ite
  · exact hR.along_done (Or.inr rfl)
  all_goals first
    | exact hR.along_checkLength _
    | exact hR.along_readUnsigned (hW _ (by decide))
    | exact hR.along_readSigned (hW _ (by decide))

theorem along_readMessageLength (hW : ∀ w ≤ 8, W w) : Along R s s.readMessageLength := by
  rw [readMessageLength_andThen]
  exact hR.along_andThen (hR.along_transferExactly (hW 1 (by decide)))
    fun _ _ _ ↦ hR.along_readLengthOf hW _

theorem along_ofPayload (mp : Codec) (payload : List UInt8) (msgBody : FrozenBuffer) :
    Along R s (ofPayload mp payload msgBody s) := by
  rw [ofPayload]
  cases mp.unpack payload with
  | none => exact hR.along_done (Or.inl rfl)
  | some r =>
      dsimp only
      cases convertHeader r.1 with
      | none => exact hR.along_done (Or.inl rfl)
      | some header =>
          intro ec frame s' h
          obtain ⟨body, -, hbody⟩ := Option.map_eq_some_iff.mp h
          exact hR.along_done (Or.inr rfl) ec frame s' (congrArg some hbody)

/-- A message is read along `R` if its length may be read. -/
theorem along_receiveMessage (mp : Codec) (hW : ∀ w ≤ 8, W w)
    (hlength : ∀ n t, s.readMessageLength = some (({}, n), t) → W n.toNat) :
    Along R s (s.receiveMessage mp) := by
  rw [receiveMessage_andThen]
  refine hR.along_andThen (hR.along_readMessageLength hW) fun n t ht ↦ ?_
  exact hR.along_andThen (hR.along_transferExactly (hlength n t ht))
    fun _ _ _ ↦ hR.along_ofPayload mp _ _

end Sequential

end IprotoFraming

end Tntpp
