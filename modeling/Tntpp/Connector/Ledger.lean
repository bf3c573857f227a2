import Mathlib.Data.List.Basic
import Mathlib.Data.List.Nodup
import Tntpp.Detail.Frame

/-!
# The ledger of requests

What a connector owes its callers can be said without its receive loop: requests are
issued, a request that is accepted is registered with its handler, and handlers are
completed, by a reply, by a reset, or at once where a request is rejected.  A
`Ledger` is that account of a run: the requests issued, those registered now, and
what has happened to their handlers, together with the connection that is current.

A handler is an `any_completion_handler`, which can be called once and is empty
afterwards; `none` is an empty one.  The handler of a request is named by the position
of the request among those issued, so no two requests share one.

`Consistent` is what every run keeps, whatever the loop does: no handler is completed
twice, a registered handler is not completed, and a reply reaches the request whose
identifier it carries.
-/

namespace Tntpp

/-- `detail::Operation`. -/
structure Operation where
  /-- The identifier, which is the `Sync` of the message. -/
  id : OperationId
  /-- The message. -/
  data : List UInt8
deriving DecidableEq, Repr

/-- The handler of a request, by the position of the request. -/
abbrev HandlerId := Nat

/-- `any_completion_handler`. -/
abbrev AnyHandler := Option HandlerId

/-- `m_requests`, in the order an iteration visits it. -/
abbrev Requests := List (OperationId × AnyHandler)

namespace Requests

/-- `unordered_map::insert`, which does nothing if the key is taken. -/
def insert (rs : Requests) (id : OperationId) (h : AnyHandler) : Requests :=
  if (rs.lookup id).isSome then rs else (id, h) :: rs

/-- `unordered_map::extract`. -/
def extract (rs : Requests) (id : OperationId) : Option (AnyHandler × Requests) :=
  (rs.lookup id).map fun h ↦ (h, rs.eraseP fun r ↦ id == r.1)

/-- The loop of `reset`: the handlers that were called, in order, what is left in the
map, and whether it was left by the exception an empty handler throws. -/
def invokeAll : Requests → List HandlerId × Requests × Bool
  | [] => ([], [], false)
  | (id, none) :: rs => ([], (id, none) :: rs, true)
  | (id, some h) :: rs =>
    let (called, left, threw) := invokeAll rs
    (h :: called, (id, none) :: left, threw)

/-- The loop goes through unless it meets an empty handler. -/
theorem invokeAll_threw_iff (rs : Requests) :
    rs.invokeAll.2.2 = false ↔ ∀ id x, (id, x) ∈ rs → x ≠ none := by
  induction rs with
  | nil => simp [invokeAll]
  | cons r rs ih =>
      obtain ⟨id, x⟩ := r
      cases x with
      | none =>
          constructor
          · intro h
            cases h
          · intro h
            exact absurd rfl (h id none List.mem_cons_self)
      | some h =>
          rw [invokeAll]
          simp only [ih, List.mem_cons, Prod.mk.injEq]
          constructor
          · rintro hrs id' x (⟨-, rfl⟩ | hx)
            · exact Option.some_ne_none h
            · exact hrs id' x hx
          · intro hrs id' x hx
            exact hrs id' x (Or.inr hx)

/-- If it does, it calls every handler, each once and in order. -/
theorem invokeAll_called {rs : Requests} (h : rs.invokeAll.2.2 = false) :
    rs.invokeAll.1 = rs.filterMap Prod.snd := by
  induction rs with
  | nil => rfl
  | cons r rs ih =>
      obtain ⟨id, x⟩ := r
      cases x with
      | none => cases h
      | some handler =>
          rw [invokeAll] at h ⊢
          exact congrArg (handler :: ·) (ih h)

/-- And then every handler is empty. -/
theorem invokeAll_left (rs : Requests) (h : rs.invokeAll.2.2 = false) {id : OperationId}
    {x : AnyHandler} (hx : (id, x) ∈ rs.invokeAll.2.1) : x = none := by
  induction rs with
  | nil => cases hx
  | cons r rs ih =>
      obtain ⟨id', y⟩ := r
      cases y with
      | none => cases h
      | some handler =>
          rw [invokeAll] at h hx
          rcases List.mem_cons.mp hx with heq | hx
          · cases heq
            rfl
          · exact ih h hx

/-- The keys. -/
def keys (rs : Requests) : List OperationId := rs.map Prod.fst

theorem lookup_eq_none {rs : Requests} {id : OperationId} (h : id ∉ rs.keys) :
    rs.lookup id = none := by
  rw [List.lookup_eq_none_iff]
  intro r hr
  exact bne_iff_ne.mpr fun heq ↦ h (heq ▸ List.mem_map_of_mem hr)

/-- A free key is taken. -/
theorem insert_of_not_mem {rs : Requests} {id : OperationId} (h : id ∉ rs.keys) (x : AnyHandler) :
    rs.insert id x = (id, x) :: rs := by
  rw [insert, lookup_eq_none h]
  rfl

theorem mem_insert {rs : Requests} {id : OperationId} {x : AnyHandler} {r : OperationId × AnyHandler}
    (h : r ∈ rs.insert id x) : r = (id, x) ∨ r ∈ rs := by
  unfold insert at h
  split_ifs at h
  · exact Or.inr h
  · exact List.mem_cons.mp h

theorem mem_insert_of_mem {rs : Requests} {id : OperationId} {x : AnyHandler}
    {r : OperationId × AnyHandler} (h : r ∈ rs) : r ∈ rs.insert id x := by
  unfold insert
  split_ifs
  · exact h
  · exact List.mem_cons_of_mem _ h

theorem mem_keys_insert {rs : Requests} {id id' : OperationId} {x : AnyHandler}
    (h : id' ∈ (rs.insert id x).keys) : id' = id ∨ id' ∈ rs.keys := by
  obtain ⟨r, hr, rfl⟩ := List.mem_map.mp h
  rcases mem_insert hr with rfl | hr
  · exact Or.inl rfl
  · exact Or.inr (List.mem_map_of_mem hr)

theorem keys_nodup_insert {rs : Requests} (h : rs.keys.Nodup) (id : OperationId) (x : AnyHandler) :
    (rs.insert id x).keys.Nodup := by
  by_cases hid : id ∈ rs.keys
  · have hsome : (rs.lookup id).isSome = true := by
      by_contra hnone
      rw [Bool.not_eq_true, Option.isSome_eq_false_iff, Option.isNone_iff_eq_none,
        List.lookup_eq_none_iff] at hnone
      obtain ⟨r, hr, rfl⟩ := List.mem_map.mp hid
      exact bne_iff_ne.mp (hnone r hr) rfl
    rw [insert, if_pos hsome]
    exact h
  · rw [insert_of_not_mem hid]
    exact List.nodup_cons.mpr ⟨hid, h⟩

/-- What `extract` finds is taken out of its place. -/
theorem extract_eq_some {rs rs' : Requests} {id : OperationId} {x : AnyHandler}
    (h : rs.extract id = some (x, rs')) :
    ∃ before after, rs = before ++ (id, x) :: after ∧ rs' = before ++ after := by
  simp only [extract, Option.map_eq_some_iff, Prod.mk.injEq] at h
  obtain ⟨y, hy, rfl, rfl⟩ := h
  obtain ⟨before, after, rfl, hbefore⟩ := List.lookup_eq_some_iff.mp hy
  refine ⟨before, after, rfl, ?_⟩
  rw [List.eraseP_append_right _ fun r hr ↦ by simpa using bne_iff_ne.mp (hbefore r hr)]
  simp

/-- Where no key is taken twice, taking one entry out is dropping all under its key. -/
theorem eraseP_eq_filter {rs : Requests} (h : rs.keys.Nodup) (id : OperationId) :
    (rs.eraseP fun r ↦ id == r.1) = rs.filter fun r ↦ r.1 != id := by
  induction rs with
  | nil => rfl
  | cons r rs ih =>
      obtain ⟨hnot, hnodup⟩ := List.nodup_cons.mp h
      by_cases hid : r.1 = id
      · have hrest : rs.filter (fun r ↦ r.1 != id) = rs := by
          refine List.filter_eq_self.mpr fun r' hr' ↦ bne_iff_ne.mpr fun heq ↦ hnot ?_
          rw [hid, ← heq]
          exact List.mem_map_of_mem hr'
        rw [List.eraseP_cons_of_pos (by simp [hid]), List.filter_cons_of_neg (by simp [hid]), hrest]
      · have hne : (id == r.1) = false := beq_false_of_ne (Ne.symm hid)
        rw [List.eraseP_cons_of_neg (by simp [hne]), List.filter_cons_of_pos (by simp [hid]),
          ih hnodup]

end Requests

/-- What happens to a handler. -/
inductive Entry where
  /-- Its request was registered, on the connection with the given number. -/
  | accepted (h : HandlerId) (epoch : Nat)
  /-- It was called. -/
  | completed (h : HandlerId) (ec : ErrorCode) (frame : IprotoFrame (List UInt8))
deriving DecidableEq

/-- The frame of a handler that is completed without one. -/
def IprotoFrame.empty : IprotoFrame (List UInt8) := ⟨{}, []⟩

/-- The account of a run. -/
structure Ledger where
  /-- The requests issued, in order. -/
  issued : List Operation
  /-- The requests registered. -/
  requests : Requests
  /-- What happened to the handlers, latest first. -/
  entries : List Entry
  /-- The number of the current connection. -/
  epoch : Nat

namespace Ledger

/-- The handler was called. -/
def Completed (l : Ledger) (h : HandlerId) : Prop := ∃ ec frame, .completed h ec frame ∈ l.entries

/-- The request was accepted on connection `epoch`. -/
def Accepted (l : Ledger) (h : HandlerId) (epoch : Nat) : Prop := .accepted h epoch ∈ l.entries

/-- The handler is registered. -/
def Pending (l : Ledger) (h : HandlerId) : Prop := ∃ id, (id, some h) ∈ l.requests

/-- Every accepted request is completed. -/
def Settled (l : Ledger) : Prop := ∀ h epoch, l.Accepted h epoch → l.Completed h

/-- The handlers that were called. -/
def completions (es : List Entry) : List HandlerId :=
  es.filterMap fun
    | .accepted .. => none
    | .completed h _ _ => some h

theorem mem_completions {es : List Entry} {h : HandlerId} :
    h ∈ completions es ↔ ∃ ec frame, .completed h ec frame ∈ es := by
  constructor
  · intro hmem
    obtain ⟨e, he, heq⟩ := List.mem_filterMap.mp hmem
    cases e with
    | accepted => cases heq
    | completed h' ec frame =>
        cases heq
        exact ⟨ec, frame, he⟩
  · rintro ⟨ec, frame, he⟩
    exact List.mem_filterMap.mpr ⟨_, he, rfl⟩

/-- What every run keeps. -/
structure Consistent (l : Ledger) : Prop where
  /-- Only handlers of issued requests are called. -/
  completed_lt : ∀ h, l.Completed h → h < l.issued.length
  /-- Only issued requests are accepted. -/
  accepted_lt : ∀ h epoch, l.Accepted h epoch → h < l.issued.length
  /-- No handler is called twice. -/
  completions_nodup : (completions l.entries).Nodup
  /-- Keys are identifiers of issued requests. -/
  key_issued : ∀ id, id ∈ l.requests.keys → id ∈ l.issued.map Operation.id
  /-- No key is taken twice. -/
  keys_nodup : l.requests.keys.Nodup
  /-- A handler is registered under the identifier of its request. -/
  pending_id : ∀ id h, (id, some h) ∈ l.requests → (l.issued[h]?).map Operation.id = some id
  /-- A registered handler was not called. -/
  pending_not_completed : ∀ h, l.Pending h → ¬ l.Completed h
  /-- A registered handler belongs to an accepted request. -/
  pending_accepted : ∀ h, l.Pending h → ∃ epoch, l.Accepted h epoch
  /-- An accepted request is registered until it is completed. -/
  accepted_pending : ∀ h epoch, l.Accepted h epoch → l.Completed h ∨ l.Pending h
  /-- An accepted request is completed before the next connection. -/
  accepted_epoch : ∀ h epoch, l.Accepted h epoch → l.Completed h ∨ epoch = l.epoch
  /-- A success is the reply to the request. -/
  success_sync : ∀ h ec frame, .completed h ec frame ∈ l.entries → ec.failed = false →
    (l.issued[h]?).map Operation.id = some frame.header.sync

/-- Nothing has happened. -/
theorem consistent_empty : Consistent ⟨[], [], [], 0⟩ := by
  constructor <;> simp [Completed, Accepted, Pending, completions, Requests.keys]

section

variable {l : Ledger}

theorem Consistent.pending_lt (hl : l.Consistent) {h : HandlerId} (hp : l.Pending h) :
    h < l.issued.length := by
  obtain ⟨epoch, hacc⟩ := hl.pending_accepted h hp
  exact hl.accepted_lt h epoch hacc

/-- A handler is registered under one key only. -/
theorem Consistent.pending_key (hl : l.Consistent) {id id' : OperationId} {h : HandlerId}
    (hid : (id, some h) ∈ l.requests) (hid' : (id', some h) ∈ l.requests) : id = id' :=
  Option.some.inj ((hl.pending_id id h hid).symm.trans (hl.pending_id id' h hid'))

theorem completed_unique_of_nodup {es : List Entry} (h : (completions es).Nodup)
    {handler : HandlerId} {ec ec' : ErrorCode} {frame frame' : IprotoFrame (List UInt8)}
    (hmem : .completed handler ec frame ∈ es) (hmem' : .completed handler ec' frame' ∈ es) :
    ec = ec' ∧ frame = frame' := by
  induction es with
  | nil => cases hmem
  | cons e es ih =>
      have htail : (completions es).Nodup := h.sublist ((List.sublist_cons_self e es).filterMap _)
      rcases List.mem_cons.mp hmem with hhead | hin <;>
        rcases List.mem_cons.mp hmem' with hhead' | hin'
      · cases hhead
        cases hhead'
        exact ⟨rfl, rfl⟩
      · cases hhead
        have hnot : handler ∉ completions es := (List.nodup_cons.mp h).1
        exact absurd (mem_completions.mpr ⟨ec', frame', hin'⟩) hnot
      · cases hhead'
        have hnot : handler ∉ completions es := (List.nodup_cons.mp h).1
        exact absurd (mem_completions.mpr ⟨ec, frame, hin⟩) hnot
      · exact ih htail hin hin'

/-- A handler is called with one outcome. -/
theorem Consistent.completed_unique (hl : l.Consistent) {h : HandlerId} {ec ec' : ErrorCode}
    {frame frame' : IprotoFrame (List UInt8)} (hmem : .completed h ec frame ∈ l.entries)
    (hmem' : .completed h ec' frame' ∈ l.entries) : ec = ec' ∧ frame = frame' :=
  completed_unique_of_nodup hl.completions_nodup hmem hmem'

/-! ## Issuing and accepting requests -/

/-- A request is issued. -/
def issue (l : Ledger) (request : Operation) : Ledger := { l with issued := l.issued ++ [request] }

theorem Consistent.issue (hl : l.Consistent) (request : Operation) :
    (l.issue request).Consistent where
  completed_lt h hc := by
    rw [Ledger.issue, List.length_append]
    exact Nat.lt_add_right _ (hl.completed_lt h hc)
  accepted_lt h epoch ha := by
    rw [Ledger.issue, List.length_append]
    exact Nat.lt_add_right _ (hl.accepted_lt h epoch ha)
  completions_nodup := hl.completions_nodup
  key_issued id hid := by
    rw [Ledger.issue, List.map_append]
    exact List.mem_append_left _ (hl.key_issued id hid)
  keys_nodup := hl.keys_nodup
  pending_id id h hp := by
    rw [Ledger.issue, List.getElem?_append_left (hl.pending_lt ⟨id, hp⟩)]
    exact hl.pending_id id h hp
  pending_not_completed := hl.pending_not_completed
  pending_accepted := hl.pending_accepted
  accepted_pending := hl.accepted_pending
  accepted_epoch := hl.accepted_epoch
  success_sync h ec frame hmem hec := by
    rw [Ledger.issue, List.getElem?_append_left (hl.completed_lt h ⟨ec, frame, hmem⟩)]
    exact hl.success_sync h ec frame hmem hec

/-- A request with a new identifier is accepted: it is issued and registered. -/
def accept (l : Ledger) (request : Operation) : Ledger where
  issued := l.issued ++ [request]
  requests := l.requests.insert request.id (some l.issued.length)
  entries := .accepted l.issued.length l.epoch :: l.entries
  epoch := l.epoch

@[simp] theorem completed_accept {request : Operation} {h : HandlerId} :
    (l.accept request).Completed h ↔ l.Completed h := by
  constructor
  · rintro ⟨ec, frame, hmem⟩
    rcases List.mem_cons.mp hmem with heq | hmem
    · cases heq
    · exact ⟨ec, frame, hmem⟩
  · rintro ⟨ec, frame, hmem⟩
    exact ⟨ec, frame, List.mem_cons_of_mem _ hmem⟩

@[simp] theorem accepted_accept {request : Operation} {h : HandlerId} {epoch : Nat} :
    (l.accept request).Accepted h epoch ↔
      (h = l.issued.length ∧ epoch = l.epoch) ∨ l.Accepted h epoch := by
  constructor
  · intro ha
    rcases List.mem_cons.mp ha with heq | ha
    · cases heq
      exact Or.inl ⟨rfl, rfl⟩
    · exact Or.inr ha
  · rintro (⟨rfl, rfl⟩ | ha)
    · exact List.mem_cons_self
    · exact List.mem_cons_of_mem _ ha

/-- A new identifier takes an entry of its own. -/
theorem mem_requests_accept {request : Operation} (hid : request.id ∉ l.requests.keys)
    {id : OperationId} {h : HandlerId} :
    (id, some h) ∈ (l.accept request).requests ↔
      (id = request.id ∧ h = l.issued.length) ∨ (id, some h) ∈ l.requests := by
  rw [Ledger.accept, Requests.insert_of_not_mem hid, List.mem_cons]
  simp

theorem Consistent.accept (hl : l.Consistent) {request : Operation}
    (hid : request.id ∉ l.issued.map Operation.id) : (l.accept request).Consistent := by
  have hpending {id : OperationId} {h : HandlerId} : (id, some h) ∈ (l.accept request).requests ↔
      (id = request.id ∧ h = l.issued.length) ∨ (id, some h) ∈ l.requests :=
    mem_requests_accept (mt (hl.key_issued _) hid)
  have hi := hl.issue request
  have hlast : (l.issued ++ [request])[l.issued.length]? = some request := by simp
  have hnew : ¬ l.Completed l.issued.length := fun hc ↦ Nat.lt_irrefl _ (hl.completed_lt _ hc)
  constructor
  case completed_lt =>
    intro h hc
    rw [completed_accept] at hc
    exact hi.completed_lt h hc
  case accepted_lt =>
    intro h epoch ha
    rcases accepted_accept.mp ha with ⟨rfl, -⟩ | ha
    · simp [Ledger.accept]
    · exact hi.accepted_lt h epoch ha
  case completions_nodup => exact hl.completions_nodup
  case key_issued =>
    intro id hid'
    rcases Requests.mem_keys_insert hid' with rfl | hid'
    · exact List.mem_map_of_mem (List.mem_append_right _ (List.mem_singleton.mpr rfl))
    · exact hi.key_issued id hid'
  case keys_nodup => exact Requests.keys_nodup_insert hl.keys_nodup _ _
  case pending_id =>
    intro id h hp
    rcases hpending.mp hp with ⟨rfl, rfl⟩ | hp
    · exact congrArg (Option.map Operation.id) hlast
    · exact hi.pending_id id h hp
  case pending_not_completed =>
    rintro h ⟨id, hp⟩ hc
    rw [completed_accept] at hc
    rcases hpending.mp hp with ⟨-, rfl⟩ | hp
    · exact hnew hc
    · exact hl.pending_not_completed h ⟨id, hp⟩ hc
  case pending_accepted =>
    rintro h ⟨id, hp⟩
    rcases hpending.mp hp with ⟨-, rfl⟩ | hp
    · exact ⟨l.epoch, accepted_accept.mpr (Or.inl ⟨rfl, rfl⟩)⟩
    · obtain ⟨epoch, ha⟩ := hl.pending_accepted h ⟨id, hp⟩
      exact ⟨epoch, accepted_accept.mpr (Or.inr ha)⟩
  case accepted_pending =>
    intro h epoch ha
    rcases accepted_accept.mp ha with ⟨rfl, -⟩ | ha
    · exact Or.inr ⟨request.id, hpending.mpr (Or.inl ⟨rfl, rfl⟩)⟩
    · rcases hl.accepted_pending h epoch ha with hc | ⟨id, hp⟩
      · exact Or.inl (completed_accept.mpr hc)
      · exact Or.inr ⟨id, hpending.mpr (Or.inr hp)⟩
  case accepted_epoch =>
    intro h epoch ha
    rcases accepted_accept.mp ha with ⟨-, rfl⟩ | ha
    · exact Or.inr rfl
    · rcases hl.accepted_epoch h epoch ha with hc | he
      · exact Or.inl (completed_accept.mpr hc)
      · exact Or.inr he
  case success_sync =>
    intro h ec frame hmem hec
    rcases List.mem_cons.mp hmem with heq | hmem
    · cases heq
    · exact hi.success_sync h ec frame hmem hec

/-! ## Calling and dropping handlers -/

/-- Empty handlers can be dropped from the registrations. -/
theorem Consistent.forget (hl : l.Consistent) {rs : Requests} (hsub : rs.Sublist l.requests)
    (hlive : ∀ id h, (id, some h) ∈ l.requests → (id, some h) ∈ rs) :
    Consistent { l with requests := rs } where
  completed_lt := hl.completed_lt
  accepted_lt := hl.accepted_lt
  completions_nodup := hl.completions_nodup
  key_issued id hid := hl.key_issued id ((hsub.map Prod.fst).subset hid)
  keys_nodup := (hsub.map Prod.fst).nodup hl.keys_nodup
  pending_id id h hp := hl.pending_id id h (hsub.subset hp)
  pending_not_completed h := fun ⟨id, hp⟩ ↦ hl.pending_not_completed h ⟨id, hsub.subset hp⟩
  pending_accepted h := fun ⟨id, hp⟩ ↦ hl.pending_accepted h ⟨id, hsub.subset hp⟩
  accepted_pending h epoch ha := (hl.accepted_pending h epoch ha).imp_right
    fun ⟨id, hp⟩ ↦ ⟨id, hlive id h hp⟩
  accepted_epoch := hl.accepted_epoch
  success_sync := hl.success_sync

/-- The order of the registrations does not matter. -/
theorem Consistent.perm (hl : l.Consistent) {rs : Requests} (h : rs.Perm l.requests) :
    Consistent { l with requests := rs } where
  completed_lt := hl.completed_lt
  accepted_lt := hl.accepted_lt
  completions_nodup := hl.completions_nodup
  key_issued id hid := hl.key_issued id ((h.map Prod.fst).subset hid)
  keys_nodup := (h.map Prod.fst).nodup_iff.mpr hl.keys_nodup
  pending_id id h' hp := hl.pending_id id h' (h.subset hp)
  pending_not_completed h' := fun ⟨id, hp⟩ ↦ hl.pending_not_completed h' ⟨id, h.subset hp⟩
  pending_accepted h' := fun ⟨id, hp⟩ ↦ hl.pending_accepted h' ⟨id, h.subset hp⟩
  accepted_pending h' epoch ha := (hl.accepted_pending h' epoch ha).imp_right
    fun ⟨id, hp⟩ ↦ ⟨id, h.symm.subset hp⟩
  accepted_epoch := hl.accepted_epoch
  success_sync := hl.success_sync

/-- An empty handler is registered for an issued request. -/
theorem Consistent.insertEmpty (hl : l.Consistent) {id : OperationId}
    (hid : id ∈ l.issued.map Operation.id) :
    Consistent { l with requests := l.requests.insert id none } := by
  have hold : ∀ id' h, (id', some h) ∈ l.requests.insert id none → (id', some h) ∈ l.requests := by
    intro id' h hmem
    rcases Requests.mem_insert hmem with heq | hmem
    · cases heq
    · exact hmem
  constructor
  case completed_lt => exact hl.completed_lt
  case accepted_lt => exact hl.accepted_lt
  case completions_nodup => exact hl.completions_nodup
  case key_issued =>
    intro id' hid'
    rcases Requests.mem_keys_insert hid' with rfl | hid'
    · exact hid
    · exact hl.key_issued id' hid'
  case keys_nodup => exact Requests.keys_nodup_insert hl.keys_nodup _ _
  case pending_id => exact fun id' h hp ↦ hl.pending_id id' h (hold id' h hp)
  case pending_not_completed =>
    exact fun h ⟨id', hp⟩ ↦ hl.pending_not_completed h ⟨id', hold id' h hp⟩
  case pending_accepted => exact fun h ⟨id', hp⟩ ↦ hl.pending_accepted h ⟨id', hold id' h hp⟩
  case accepted_pending =>
    intro h epoch ha
    exact (hl.accepted_pending h epoch ha).imp_right
      fun ⟨id', hp⟩ ↦ ⟨id', Requests.mem_insert_of_mem hp⟩
  case accepted_epoch => exact hl.accepted_epoch
  case success_sync => exact hl.success_sync

/-- A handler is called. -/
def complete (l : Ledger) (h : HandlerId) (ec : ErrorCode) (frame : IprotoFrame (List UInt8)) :
    Ledger :=
  { l with entries := .completed h ec frame :: l.entries }

@[simp] theorem completed_complete {h h' : HandlerId} {ec : ErrorCode}
    {frame : IprotoFrame (List UInt8)} :
    (l.complete h ec frame).Completed h' ↔ h' = h ∨ l.Completed h' := by
  constructor
  · rintro ⟨ec', frame', hmem⟩
    rcases List.mem_cons.mp hmem with heq | hmem
    · cases heq
      exact Or.inl rfl
    · exact Or.inr ⟨ec', frame', hmem⟩
  · rintro (rfl | ⟨ec', frame', hmem⟩)
    · exact ⟨ec, frame, List.mem_cons_self⟩
    · exact ⟨ec', frame', List.mem_cons_of_mem _ hmem⟩

@[simp] theorem accepted_complete {h h' : HandlerId} {ec : ErrorCode}
    {frame : IprotoFrame (List UInt8)} {epoch : Nat} :
    (l.complete h ec frame).Accepted h' epoch ↔ l.Accepted h' epoch := by
  simp [Accepted, complete]

/-- A handler that was not called is called, and its registration, if it has one, is
emptied or dropped. -/
theorem Consistent.call (hl : l.Consistent) {h : HandlerId} (hlt : h < l.issued.length)
    (hc : ¬ l.Completed h) {ec : ErrorCode} {frame : IprotoFrame (List UInt8)}
    (hsync : ec.failed = false → (l.issued[h]?).map Operation.id = some frame.header.sync)
    {rs : Requests} (hsub : rs.keys.Sublist l.requests.keys)
    (hold : ∀ id h', (id, some h') ∈ rs → h' ≠ h ∧ (id, some h') ∈ l.requests)
    (hkeep : ∀ id h', (id, some h') ∈ l.requests → h' ≠ h → (id, some h') ∈ rs) :
    Consistent { l.complete h ec frame with requests := rs } where
  completed_lt h' hc' := by
    rcases completed_complete.mp hc' with rfl | hc'
    · exact hlt
    · exact hl.completed_lt h' hc'
  accepted_lt h' epoch ha := hl.accepted_lt h' epoch (accepted_complete.mp ha)
  completions_nodup := by
    refine List.nodup_cons.mpr ⟨?_, hl.completions_nodup⟩
    exact fun hmem ↦ hc (mem_completions.mp hmem)
  key_issued id hid := hl.key_issued id (hsub.subset hid)
  keys_nodup := hsub.nodup hl.keys_nodup
  pending_id id h' hp := hl.pending_id id h' (hold id h' hp).2
  pending_not_completed := by
    rintro h' ⟨id, hp⟩ hc'
    obtain ⟨hne, hp'⟩ := hold id h' hp
    rcases completed_complete.mp hc' with rfl | hc'
    · exact hne rfl
    · exact hl.pending_not_completed h' ⟨id, hp'⟩ hc'
  pending_accepted := by
    rintro h' ⟨id, hp⟩
    obtain ⟨epoch, ha⟩ := hl.pending_accepted h' ⟨id, (hold id h' hp).2⟩
    exact ⟨epoch, accepted_complete.mpr ha⟩
  accepted_pending h' epoch ha := by
    by_cases heq : h' = h
    · exact Or.inl (completed_complete.mpr (Or.inl heq))
    · rcases hl.accepted_pending h' epoch (accepted_complete.mp ha) with hc' | ⟨id, hp⟩
      · exact Or.inl (completed_complete.mpr (Or.inr hc'))
      · exact Or.inr ⟨id, hkeep id h' hp heq⟩
  accepted_epoch h' epoch ha := by
    rcases hl.accepted_epoch h' epoch (accepted_complete.mp ha) with hc' | he
    · exact Or.inl (completed_complete.mpr (Or.inr hc'))
    · exact Or.inr he
  success_sync h' ec' frame' hmem hec := by
    rcases List.mem_cons.mp hmem with heq | hmem
    · cases heq
      exact hsync hec
    · exact hl.success_sync h' ec' frame' hmem hec

/-- A request is issued and rejected: its handler is called with an error. -/
def reject (l : Ledger) (request : Operation) (ec : ErrorCode) : Ledger :=
  (l.issue request).complete l.issued.length ec .empty

theorem Consistent.reject (hl : l.Consistent) (request : Operation) {ec : ErrorCode}
    (hec : ec.failed = true) : (l.reject request ec).Consistent := by
  have hi := hl.issue request
  have hlt : l.issued.length < (l.issue request).issued.length := by simp [Ledger.issue]
  have hc : ¬ (l.issue request).Completed l.issued.length :=
    fun hc ↦ Nat.lt_irrefl _ (hl.completed_lt _ hc)
  have hp : ¬ (l.issue request).Pending l.issued.length :=
    fun hp ↦ Nat.lt_irrefl _ (hl.pending_lt hp)
  refine hi.call hlt hc ?_ (List.Sublist.refl _) ?_ fun _ _ hp' _ ↦ hp'
  · intro hok
    exact absurd (hec.symm.trans hok) (by decide)
  · rintro id h' hp'
    refine ⟨?_, hp'⟩
    rintro rfl
    exact hp ⟨id, hp'⟩

/-! ## Replies and resets -/

/-- A registered handler is registered in one place. -/
theorem Consistent.ne_of_split (hl : l.Consistent) {before after : Requests} {id : OperationId}
    {h : HandlerId} (hrs : l.requests = before ++ (id, some h) :: after) {id' : OperationId}
    {h' : HandlerId} (hmem : (id', some h') ∈ before ++ after) : h' ≠ h := by
  rintro rfl
  have hnodup := hl.keys_nodup
  have hin : (id', some h') ∈ l.requests := by
    rw [hrs]
    rcases List.mem_append.mp hmem with hmem | hmem
    · exact List.mem_append_left _ hmem
    · exact List.mem_append_right _ (List.mem_cons_of_mem _ hmem)
  have hself : (id, some h') ∈ l.requests := by
    rw [hrs]
    exact List.mem_append_right _ List.mem_cons_self
  obtain rfl := hl.pending_key hin hself
  rw [hrs, Requests.keys, List.map_append, List.map_cons, List.nodup_middle,
    List.nodup_cons] at hnodup
  apply hnodup.1
  rw [← List.map_append]
  exact List.mem_map_of_mem (f := Prod.fst) hmem

/-- A registered handler is called, and its registration emptied. -/
theorem Consistent.callInPlace (hl : l.Consistent) {before after : Requests} {id : OperationId}
    {h : HandlerId} (hrs : l.requests = before ++ (id, some h) :: after) (ec : ErrorCode)
    (frame : IprotoFrame (List UInt8)) (hsync : ec.failed = false → id = frame.header.sync) :
    Consistent { l.complete h ec frame with requests := before ++ (id, none) :: after } := by
  have hp : (id, some h) ∈ l.requests := by
    rw [hrs]
    exact List.mem_append_right _ List.mem_cons_self
  refine hl.call (hl.pending_lt ⟨id, hp⟩) (hl.pending_not_completed h ⟨id, hp⟩) ?_ ?_ ?_ ?_
  · intro hec
    rw [hl.pending_id id h hp, hsync hec]
  · rw [hrs]
    simp [Requests.keys]
  · intro id' h' hmem
    have hmem' : (id', some h') ∈ before ++ after := by simpa using hmem
    refine ⟨hl.ne_of_split hrs hmem', ?_⟩
    rw [hrs]
    rcases List.mem_append.mp hmem' with hmem' | hmem'
    · exact List.mem_append_left _ hmem'
    · exact List.mem_append_right _ (List.mem_cons_of_mem _ hmem')
  · intro id' h' hmem hne
    rw [hrs] at hmem
    simpa [hne] using hmem

/-- The handler of a reply is taken out of the registrations, and called unless it is
empty. -/
def reply (l : Ledger) (frame : IprotoFrame (List UInt8)) : Ledger :=
  match l.requests.extract frame.header.sync with
  | none => l
  | some (none, rs) => { l with requests := rs }
  | some (some h, rs) => { l.complete h {} frame with requests := rs }

theorem Consistent.reply (hl : l.Consistent) (frame : IprotoFrame (List UInt8)) :
    (l.reply frame).Consistent := by
  unfold Ledger.reply
  split
  · exact hl
  · rename_i rs hex
    obtain ⟨before, after, hrs, rfl⟩ := Requests.extract_eq_some hex
    refine hl.forget ?_ ?_
    · rw [hrs]
      exact (List.sublist_cons_self _ _).append_left before
    · intro id h hmem
      rw [hrs] at hmem
      simpa using hmem
  · rename_i h rs hex
    obtain ⟨before, after, hrs, rfl⟩ := Requests.extract_eq_some hex
    have hcall := hl.callInPlace hrs {} frame fun _ ↦ rfl
    refine hcall.forget ?_ ?_
    · exact (List.sublist_cons_self _ _).append_left before
    · intro id h' hmem
      simpa using hmem

/-- The entries of handlers that are called one after the other with one error, latest
first. -/
def callsOf (ec : ErrorCode) (called : List HandlerId) : List Entry :=
  (called.map fun h ↦ .completed h ec .empty).reverse

/-- Handlers are called one after the other with one error. -/
def completeAll (l : Ledger) (ec : ErrorCode) (called : List HandlerId) : Ledger :=
  { l with entries := callsOf ec called ++ l.entries }

/-- The loop of `reset` over the registrations from some position on. -/
theorem Consistent.invokeAll_from (hl : l.Consistent) {ec : ErrorCode} (hec : ec.failed = true)
    (before after : Requests) (hrs : l.requests = before ++ after) :
    Consistent { l.completeAll ec after.invokeAll.1 with
      requests := before ++ after.invokeAll.2.1 } := by
  induction after generalizing before l with
  | nil =>
      rw [List.append_nil] at hrs
      simpa [Requests.invokeAll, completeAll, callsOf, ← hrs] using hl
  | cons r rs ih =>
      obtain ⟨id, x⟩ := r
      cases x with
      | none => simpa [Requests.invokeAll, completeAll, callsOf, ← hrs] using hl
      | some h =>
          have hcall := hl.callInPlace hrs ec .empty
            fun hok ↦ absurd (hec.symm.trans hok) (by decide)
          have hnext := ih hcall (before ++ [(id, none)]) (by simp)
          simpa [Requests.invokeAll, completeAll, callsOf, complete] using hnext

/-- The loop of `reset`. -/
theorem Consistent.invokeAll (hl : l.Consistent) {ec : ErrorCode} (hec : ec.failed = true) :
    Consistent { l.completeAll ec l.requests.invokeAll.1 with
      requests := l.requests.invokeAll.2.1 } :=
  hl.invokeAll_from hec [] l.requests rfl

/-! ## The next connection -/

/-- The next connection. -/
def reopen (l : Ledger) : Ledger := { l with epoch := l.epoch + 1 }

/-- A connection can follow once every accepted request is completed. -/
theorem Consistent.reopen (hl : l.Consistent) (hs : l.Settled) : l.reopen.Consistent where
  completed_lt := hl.completed_lt
  accepted_lt := hl.accepted_lt
  completions_nodup := hl.completions_nodup
  key_issued := hl.key_issued
  keys_nodup := hl.keys_nodup
  pending_id := hl.pending_id
  pending_not_completed := hl.pending_not_completed
  pending_accepted := hl.pending_accepted
  accepted_pending := hl.accepted_pending
  accepted_epoch h epoch ha := Or.inl (hs h epoch ha)
  success_sync := hl.success_sync

end

end Ledger

end Tntpp
