import Pybus.Wire
import Pybus.Working

/-! The retry state that a copy of a message carries over the wire. -/
namespace Pybus

open Value Texts MessageEnvelope

section Values

variable [Texts] {v w : Value} {d : Dict} {k : String}

/-- No count is lost or won on the wire. -/
theorem validRetryCount_settled : validRetryCount v.settled = validRetryCount v := by
  cases v with
  | int i => rw [settled_int]
  | str s => rw [settled_str]
  | _ => simp [Value.settled, inUtc, sortKeys, validRetryCount]

theorem resolveRetryCount_settled :
    resolveRetryCount none (settledEntries d) = resolveRetryCount none d := by
  simp only [resolveRetryCount, get_settledEntries, validRetryCount_settled]

omit [Texts] in
theorem hashable_settled : v.settled.hashable = v.hashable := by
  cases v <;> simp [Value.settled, inUtc, sortKeys, hashable]

omit [Texts] in
/-- A lookup finds the same under a key that has gone over the wire. -/
theorem lookupKey_settled {α : Type} {l : List (MessageKey × α)} :
    Registry.lookupKey l v.settled w.settled = Registry.lookupKey l v w := by
  unfold Registry.lookupKey
  rw [hashable_settled, hashable_settled]
  cases v with
  | str s =>
    cases w with
    | str t => rw [settled_str, settled_str]
    | _ => simp [Value.settled, inUtc, sortKeys]
  | _ => simp [Value.settled, inUtc, sortKeys]

omit [Texts] in
theorem plainEntries_set (hd : plainEntries d = true) (hv : plain v = true) :
    plainEntries (Value.set d k v) = true := by
  induction d with
  | nil => simp [Value.set, plainEntries, hv]
  | cons e d ih =>
    obtain ⟨l, w⟩ := e
    rw [plainEntries, Bool.and_eq_true] at hd
    unfold Value.set
    split
    · rw [plainEntries, hv, hd.2]
      rfl
    · rw [plainEntries, hd.1, ih hd.2]
      rfl

omit [Texts] in
/-- An entry under another key makes no marker object. -/
theorem plain_set (hd : plain (.dict d) = true) (hv : plain v = true)
    (hk : "__pybus_type__" ≠ k) : plain (.dict (Value.set d k v)) = true := by
  rw [plain, Bool.and_eq_true] at hd ⊢
  refine ⟨?_, plainEntries_set hd.2 hv⟩
  rw [isMarker, lookup_set_ne hk]
  exact hd.1

end Values

namespace MessageEnvelope

variable [Texts] {e e' : MessageEnvelope} {now : Instant} {raw : Raw}

/-- A copy that can be read is read from the document that was written. -/
theorem reads_copy [RoundTexts] (hv : e.Valid) (hp : e.Plain) (hd : e.dump = .ok raw)
    (hr : read now raw = .ok e') : ∃ c x, Reads now (settledEntries (e.document c x)) e' := by
  have hdumpable : e.Dumpable := by
    by_contra hn
    rw [dump_of_not_dumpable hv hn] at hd
    cases hd
  obtain ⟨v, hv', hraw⟩ := dump_of_dumpable hv hdumpable
  rw [hd, Except.ok.injEq] at hraw
  subst hraw
  obtain ⟨c, x, hc, hx, hdumps⟩ := dumps_toDict hv'
  have hcp : plain c = true := by
    obtain ⟨s, rfl⟩ := isoformat_eq_str hc
    simp only [plain]
  have hxp : plain x = true := by
    split at hx
    · obtain ⟨s, rfl⟩ := isoformat_eq_str hx
      simp only [plain]
    · cases hx
      simp only [plain]
  have hloads := loads_dumps (plain_document hp hcp hxp)
  rw [read, hdumps, hloads, settled_dict] at hr
  simp only [Except.bind] at hr
  exact ⟨c, x, reads_of_fromDict hr⟩

/-- Whatever its timestamps are, a copy that can be read has the headers, the kind and the type that
were written. -/
theorem read_copy [RoundTexts] (hv : e.Valid) (hp : e.Plain) (hd : e.dump = .ok raw)
    (hr : read now raw = .ok e') : e'.headers = settledEntries e.headers ∧
      e'.messageKind = e.messageKind.settled ∧ e'.messageType = e.messageType.settled := by
  obtain ⟨c, x, hreads⟩ := reads_copy hv hp hd hr
  have hlookup : ∀ k w, (e.document c x).lookup k = some w →
      (settledEntries (e.document c x)).lookup k = some w.settled := by
    intro k w hk
    rw [lookup_settledEntries, hk]
    rfl
  refine ⟨?_, ?_, ?_⟩
  · have hheaders : Value.get (settledEntries (e.document c x)) "headers" =
        .dict (settledEntries e.headers) := by
      rw [get_settledEntries, ← settled_dict]
      simp [Value.get, document, List.lookup_cons]
    have hdecode := hreads.headers
    rw [hheaders] at hdecode
    have hplain := plain_settled hp.headers
    rw [settled_dict] at hplain
    split at hdecode
    · rw [decodeValue_of_plain _ hplain] at hdecode
      exact (Value.dict.inj (Except.ok.inj hdecode)).symm
    · rename_i hempty
      have hnil : settledEntries e.headers = [] := by simpa [truthy] using hempty
      simp only [decodeValue] at hdecode
      rw [hnil]
      exact (Value.dict.inj (Except.ok.inj hdecode)).symm
  · have hkind := hlookup "message_kind" e.messageKind (by simp [document, List.lookup_cons])
    exact Option.some.inj (hreads.messageKind.symm.trans hkind)
  · have htype := hlookup "message_type" e.messageType (by simp [document, List.lookup_cons])
    exact Option.some.inj (hreads.messageType.symm.trans htype)

/-- It has the identifier, the version and the payload that were written. -/
theorem read_copy_message [RoundTexts] (hv : e.Valid) (hp : e.Plain) (hd : e.dump = .ok raw)
    (hr : read now raw = .ok e') : e'.messageId = e.messageId.settled ∧ e'.version = e.version ∧
      e'.payload = e.payload.settled := by
  obtain ⟨c, x, hreads⟩ := reads_copy hv hp hd hr
  have hlookup : ∀ k w, (e.document c x).lookup k = some w →
      (settledEntries (e.document c x)).lookup k = some w.settled := by
    intro k w hk
    rw [lookup_settledEntries, hk]
    rfl
  refine ⟨?_, ?_, ?_⟩
  · have hid := hlookup "message_id" e.messageId (by simp [document])
    exact Option.some.inj (hreads.messageId.symm.trans hid)
  · have hversion := hlookup "version" (.int e.version) (by simp [document, List.lookup_cons])
    rw [settled_int] at hversion
    exact Value.int.inj (Option.some.inj (hreads.version.symm.trans hversion))
  · obtain ⟨p, hpayload, hdecode⟩ := hreads.payload
    rw [hlookup "payload" e.payload (by simp [document, List.lookup_cons])] at hpayload
    rw [← Option.some.inj hpayload, decodeValue_of_plain _ (plain_settled hp.payload)] at hdecode
    exact (Except.ok.inj hdecode).symm

/-- Two readings of a dictionary agree on everything but a missing time of creation. -/
theorem Reads.later {now' : Instant} {data : Dict} (h : Reads now data e)
    (h' : Reads now' data e') :
    e' = { e with createdAt := e'.createdAt } := by
  obtain ⟨p, hp, hpayload⟩ := h.payload
  obtain ⟨p', hp', hpayload'⟩ := h'.payload
  obtain rfl : p = p' := Option.some.inj (hp.symm.trans hp')
  have hversion := Option.some.inj (h'.version.symm.trans h.version)
  have hheaders := Except.ok.inj (h'.headers.symm.trans h.headers)
  cases e'
  simp only [mk.injEq]
  exact ⟨Option.some.inj (h'.messageId.symm.trans h.messageId),
    Option.some.inj (h'.messageType.symm.trans h.messageType),
    Option.some.inj (h'.messageKind.symm.trans h.messageKind), Value.int.inj hversion,
    Except.ok.inj (hpayload'.symm.trans hpayload), Value.dict.inj hheaders, trivial,
    h'.correlationId.trans h.correlationId.symm, h'.causationId.trans h.causationId.symm,
    h'.replyTo.trans h.replyTo.symm, Except.ok.inj (h'.expiresAt.symm.trans h.expiresAt),
    h'.contentType.trans h.contentType.symm, h'.contentEncoding.trans h.contentEncoding.symm⟩

/-- The retry count that a message carries in its headers. -/
def headerCount (e : MessageEnvelope) : Nat := resolveRetryCount none e.headers

omit [Texts] in
theorem identity_settled (h : DurableJobController.identity e = .ok none)
    (he : e'.headers = settledEntries e.headers) :
    DurableJobController.identity e' = .ok none := by
  obtain ⟨hr, hg⟩ := DurableJobController.identity_eq_none h
  rw [DurableJobController.identity, he, get_settledEntries, get_settledEntries, hr, hg,
    settled_null]

theorem headerCount_settled (he : e'.headers = settledEntries e.headers) :
    e'.headerCount = e.headerCount := by
  rw [headerCount, he, resolveRetryCount_settled]
  rfl

section Retried

variable {typed : Bool} {n : Nat}

omit [Texts] in
theorem plain_iff : e.Plain ↔ plain e.messageId = true ∧ plain e.messageType = true ∧
    plain e.messageKind = true ∧ plain e.payload = true ∧ plain (.dict e.headers) = true ∧
    plain e.correlationId = true ∧ plain e.causationId = true ∧ plain e.replyTo = true ∧
    plain e.contentType = true ∧ plain e.contentEncoding = true := by
  simp only [Plain, document, plainEntries, Bool.and_eq_true, Value.plain, and_true, true_and]

theorem plain_nextRetryPayload {d : Dict} (h : plain (.dict d) = true) :
    plain (.dict (nextRetryPayload d now n)) = true :=
  plain_set (plain_set h (by simp only [Value.plain]) (by decide)) (by simp only [Value.plain])
    (by decide)

theorem plain_retryPayload (h : plain e.payload = true) :
    plain (Listener.retryPayload e typed now n) = true := by
  unfold Listener.retryPayload
  split
  · rename_i d hd
    rw [hd] at h
    exact plain_nextRetryPayload h
  · exact h

theorem retried_plain (h : e.Plain) : (e.retried typed now n).Plain := by
  rw [plain_iff] at h ⊢
  obtain ⟨hid, htype, hkind, hpayload, hheaders, hrest⟩ := h
  refine ⟨hid, htype, hkind, plain_retryPayload hpayload, ?_, hrest⟩
  exact plain_set (plain_set hheaders (by simp only [Value.plain]) (by decide))
    (by simp only [Value.plain]) (by decide)

theorem get_retried {k : String} (hr : k ≠ "retries") (hl : k ≠ "last_attempt") :
    Value.get (e.retried typed now n).headers k = Value.get e.headers k := by
  rw [Value.get, retried, lookup_set_ne hl, lookup_set_ne hr]
  rfl

theorem retries_retried :
    validRetryCount (Value.get (e.retried typed now n).headers "retries") = some (n + 1) := by
  have hget : Value.get (e.retried typed now n).headers "retries" = .int (n + 1) := by
    rw [Value.get, retried, lookup_set_ne (by decide), lookup_set]
    rfl
  have hpos : ¬ ((n : Int) + 1 < 0) := by omega
  have hnat : ((n : Int) + 1).toNat = n + 1 := by omega
  rw [hget, validRetryCount, if_neg hpos, hnat]

theorem headerCount_retried : (e.retried typed now n).headerCount = n + 1 := by
  simp only [headerCount, resolveRetryCount, retries_retried]

theorem identity_retried (h : DurableJobController.identity e = .ok none) :
    DurableJobController.identity (e.retried typed now n) = .ok none := by
  obtain ⟨hr, hg⟩ := DurableJobController.identity_eq_none h
  rw [DurableJobController.identity, get_retried (by decide) (by decide),
    get_retried (by decide) (by decide), hr, hg]

end Retried

end MessageEnvelope

section Listener

variable [Texts] {Obj : Type} {L : Listener Obj} {e e' : MessageEnvelope}

/-- The listener reads the retry count of the message from its headers alone: the message is typed,
or its headers hold a valid count. -/
def Listener.CarriesCount (L : Listener Obj) (e : MessageEnvelope) : Prop :=
  L.isTyped e = .ok true ∨ (validRetryCount (Value.get e.headers "retries")).isSome

omit [Texts] in
theorem isTyped_settled (hkind : e'.messageKind = e.messageKind.settled)
    (htype : e'.messageType = e.messageType.settled) : L.isTyped e' = L.isTyped e := by
  rw [Listener.isTyped, Registry.messageClassFor, hkind, htype, lookupKey_settled]
  rfl

theorem Listener.CarriesCount.retryCount (h : L.CarriesCount e) {n : Nat}
    (hn : L.retryCount e = .ok n) : n = e.headerCount := by
  unfold Listener.retryCount at hn
  cases ht : L.isTyped e with
  | error exc => simp [ht, bind, Except.bind] at hn
  | ok typed =>
    simp only [ht, bind, Except.bind, pure, Except.pure, Except.ok.injEq] at hn
    rw [← hn, headerCount]
    rcases h with h | h
    · rw [ht, Except.ok.injEq] at h
      rw [h, if_pos rfl]
    · obtain ⟨m, hm⟩ := Option.isSome_iff_exists.mp h
      simp only [resolveRetryCount, hm]

/-- What is known of a copy that was read is what was known of the copy that was written. -/
theorem Listener.CarriesCount.settled (h : L.CarriesCount e)
    (hkind : e'.messageKind = e.messageKind.settled)
    (htype : e'.messageType = e.messageType.settled)
    (hheaders : e'.headers = settledEntries e.headers) : L.CarriesCount e' := by
  rcases h with h | h
  · exact .inl ((isTyped_settled hkind htype).trans h)
  · refine .inr ?_
    rw [hheaders, get_settledEntries, validRetryCount_settled]
    exact h

end Listener

end Pybus
