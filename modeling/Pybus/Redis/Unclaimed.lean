import Pybus.Redis.Reports
import Mathlib.Data.List.DropRight

/-! The processing entries that no indexed claim covers, counted on the keys as Redis hands them
over: the names of hash fields and of index members are bytes that have to be decoded. -/
namespace Pybus.Redis

open Interaction Relational Texts

/-- What a client returns for a name: bytes, or text if it decodes responses itself. -/
inductive Reply
  | bytes (b : ByteArray)
  | str (s : String)

instance : DecidableEq Reply
  | .bytes b, .bytes b' =>
    haveI : Decidable (b = b') := ByteArray.instDecidableEq b b'
    decidable_of_iff (b = b') (by simp)
  | .str s, .str s' => decidable_of_iff (s = s') (by simp)
  | .bytes _, .str _ | .str _, .bytes _ => isFalse (by simp)

/-- The keys of a channel that `unclaimed_processing_entries` reads. The payloads are the values of
the fields of the claims hash. -/
structure RawKeys (Bytes : Type) where
  processing : List Bytes
  claims : List (Reply × Bytes)
  index : List Reply
  claims_nodup : (claims.map (·.1)).Nodup
  index_nodup : index.Nodup

namespace RawKeys

variable {Bytes : Type} [DecidableEq Bytes]

/-- `_decode`. -/
def decode : Reply → Except Exc String
  | .str s => .ok s
  | .bytes b =>
    match String.fromUTF8? b with
    | some s => .ok s
    | none => .error (.other "UnicodeDecodeError")

/-- The part of a text before the suffix `:payload`, if it has that suffix. -/
def beforePayload (text : String) : Option String :=
  if ":payload".toList <:+ text.toList then
    some (String.ofList (text.toList.rdrop ":payload".toList.length))
  else none

/-- `_payload_claim_id`. -/
def payloadClaimId (field : Reply) : Except Exc (Option String) := (decode field).map beforePayload

/-- `LRANGE key 0 stop`. -/
def range (k : RawKeys Bytes) (stop : Int) : List Bytes :=
  if stop < 0 then k.processing.take (k.processing.length + stop + 1).toNat
  else k.processing.take (stop + 1).toNat

/-- The loop that counts the indexed payloads. -/
def countIndexed (indexedClaimIds : List String) : List (Reply × Bytes) → (Bytes → Nat) →
    Except Exc (Bytes → Nat)
  | [], indexedPayloads => .ok indexedPayloads
  | (field, value) :: claims, indexedPayloads => do
    match ← payloadClaimId field with
    | some claimId =>
      if claimId ∈ indexedClaimIds then
        countIndexed indexedClaimIds claims
          (Function.update indexedPayloads value (indexedPayloads value + 1))
      else countIndexed indexedClaimIds claims indexedPayloads
    | none => countIndexed indexedClaimIds claims indexedPayloads

/-- `unclaimed_processing_entries`. -/
def unclaimedProcessingEntries (k : RawKeys Bytes) (limit : Int) : Except Exc (List Bytes) := do
  let processing := k.range (limit - 1)
  let indexedClaimIds ← k.index.mapM decode
  let indexedPayloads ← countIndexed indexedClaimIds k.claims fun _ => 0
  return RedisTransport.uncovered indexedPayloads processing

/-- A field that holds the payload of a claim in the index. -/
def Indexed (k : RawKeys Bytes) (field : Reply) : Prop :=
  ∃ claimId, decode field = .ok (claimId ++ ":payload") ∧
    ∃ member ∈ k.index, decode member = .ok claimId

open Classical in
/-- How many payloads of indexed claims equal a payload. -/
noncomputable def indexedCount (k : RawKeys Bytes) (p : Bytes) : Nat :=
  k.claims.countP fun c => c.2 = p ∧ k.Indexed c.1

/-- All names of fields and members are text. -/
def Legible (k : RawKeys Bytes) : Prop :=
  (∀ c ∈ k.claims, (decode c.1).isOk = true) ∧ ∀ m ∈ k.index, (decode m).isOk = true

section Names

variable {text claimId : String} {field : Reply} {names : List Reply} {ids : List String}

theorem beforePayload_eq_some : beforePayload text = some claimId ↔ text = claimId ++ ":payload" := by
  unfold beforePayload
  constructor
  · intro h
    split at h
    · rename_i hsuffix
      obtain ⟨t, ht⟩ := hsuffix
      cases h
      apply String.toList_injective
      rw [String.toList_append, String.toList_ofList, ← ht]
      simp [List.rdrop]
    · cases h
  · rintro rfl
    have hsuffix : ":payload".toList <:+ (claimId ++ ":payload").toList := by
      rw [String.toList_append]
      exact List.suffix_append ..
    rw [if_pos hsuffix]
    congr 1
    apply String.toList_injective
    rw [String.toList_ofList, String.toList_append]
    simp [List.rdrop]

theorem decode_error {exc : Exc} (h : decode field = .error exc) :
    exc = .other "UnicodeDecodeError" := by
  unfold decode at h
  repeat' split at h
  all_goals cases h
  rfl

/-- Decoding all names gives the texts of the names, or raises if one of them is not text. -/
theorem mapM_decode (names : List Reply) : (∃ ids, names.mapM decode = .ok ids ∧
      (∀ id, id ∈ ids ↔ ∃ m ∈ names, decode m = .ok id) ∧ ∀ m ∈ names, (decode m).isOk = true) ∨
    (∃ m ∈ names, (decode m).isOk = false) ∧
      names.mapM decode = .error (.other "UnicodeDecodeError") := by
  induction names with
  | nil => exact .inl ⟨[], rfl, by simp, by simp⟩
  | cons m names ih =>
    rw [List.mapM_cons]
    cases hm : decode m with
    | error exc =>
      rw [decode_error hm]
      exact .inr ⟨⟨m, by simp, by rw [hm]; rfl⟩, rfl⟩
    | ok id =>
      rcases ih with ⟨ids, hids, hmem, hlegible⟩ | ⟨⟨m', hm', hbad⟩, herr⟩
      · refine .inl ⟨id :: ids, by rw [hids]; rfl, fun id' => by simp [hmem, hm, eq_comm], ?_⟩
        exact List.forall_mem_cons.mpr ⟨by rw [hm]; rfl, hlegible⟩
      · exact .inr ⟨⟨m', by simp [hm'], hbad⟩, by rw [herr]; rfl⟩

end Names

section Counting

variable {k : RawKeys Bytes} {claims : List (Reply × Bytes)} {ids : List String} {n : Bytes → Nat}
  {p : Bytes}

/-- A field that holds the payload of one of some claims. -/
def NamesClaim (ids : List String) (field : Reply) : Prop :=
  ∃ claimId, decode field = .ok (claimId ++ ":payload") ∧ claimId ∈ ids

theorem names_iff {text : String} {field : Reply} (h : decode field = .ok text) :
    NamesClaim ids field ↔ ∃ claimId ∈ ids, beforePayload text = some claimId := by
  simp only [NamesClaim, h, Except.ok.injEq, beforePayload_eq_some]
  constructor
  · rintro ⟨claimId, htext, hmem⟩
    exact ⟨claimId, hmem, htext⟩
  · rintro ⟨claimId, hmem, htext⟩
    exact ⟨claimId, htext, hmem⟩

open Classical in
/-- The loop adds to every payload the number of its fields that belong to the claims. -/
theorem countIndexed_spec (ids : List String) (claims : List (Reply × Bytes)) : (∃ n', countIndexed ids claims n = .ok n' ∧
      (∀ p, n' p = n p + claims.countP fun c => c.2 = p ∧ NamesClaim ids c.1) ∧
      ∀ c ∈ claims, (decode c.1).isOk = true) ∨
    (∃ c ∈ claims, (decode c.1).isOk = false) ∧
      countIndexed ids claims n = .error (.other "UnicodeDecodeError") := by
  induction claims generalizing n with
  | nil => exact .inl ⟨n, rfl, by simp, by simp⟩
  | cons c claims ih =>
    obtain ⟨field, value⟩ := c
    cases hd : decode field with
    | error exc =>
      refine .inr ⟨⟨_, List.mem_cons_self, by rw [hd]; rfl⟩, ?_⟩
      rw [decode_error hd] at hd
      simp [countIndexed, payloadClaimId, hd, Except.map, bind, Except.bind]
    | ok text =>
      -- Whether the field counts is what the loop looks up.
      by_cases hnames : NamesClaim ids field
      · obtain ⟨claimId, hmem, hbefore⟩ := (names_iff hd).mp hnames
        have hstep : countIndexed ids ((field, value) :: claims) n =
            countIndexed ids claims (Function.update n value (n value + 1)) := by
          simp [countIndexed, payloadClaimId, hd, Except.map, bind, Except.bind, hbefore, hmem]
        rw [hstep]
        rcases ih (n := Function.update n value (n value + 1)) with
          ⟨n', hn', hcount, hlegible⟩ | ⟨⟨c, hc, hbad⟩, herr⟩
        · refine .inl ⟨n', hn', fun p => ?_, List.forall_mem_cons.mpr ⟨by rw [hd]; rfl, hlegible⟩⟩
          rw [hcount p, List.countP_cons]
          by_cases hp : value = p
          · subst hp
            simp [hnames]
            omega
          · simp [hp, Function.update_of_ne (Ne.symm hp)]
        · exact .inr ⟨⟨c, by simp [hc], hbad⟩, herr⟩
      · have hstep : countIndexed ids ((field, value) :: claims) n = countIndexed ids claims n := by
          have hnone : ∀ claimId, beforePayload text = some claimId → claimId ∉ ids :=
            fun claimId hb hmem => hnames ((names_iff hd).mpr ⟨claimId, hmem, hb⟩)
          cases hb : beforePayload text with
          | none => simp [countIndexed, payloadClaimId, hd, Except.map, bind, Except.bind, hb]
          | some claimId =>
            simp [countIndexed, payloadClaimId, hd, Except.map, bind, Except.bind, hb,
              hnone claimId hb]
        rw [hstep]
        rcases ih (n := n) with ⟨n', hn', hcount, hlegible⟩ | ⟨⟨c, hc, hbad⟩, herr⟩
        · refine .inl ⟨n', hn', fun p => ?_, List.forall_mem_cons.mpr ⟨by rw [hd]; rfl, hlegible⟩⟩
          rw [hcount p, List.countP_cons]
          simp [hnames]
        · exact .inr ⟨⟨c, by simp [hc], hbad⟩, herr⟩

omit [DecidableEq Bytes] in
theorem range_of_pos {limit : Int} (h : 1 ≤ limit) :
    k.range (limit - 1) = k.processing.take limit.toNat := by
  unfold range
  rw [if_neg (by omega)]
  congr 1
  omega

/-- What is reported: the entries of the window that the indexed claims do not cover. -/
theorem unclaimed_legible (limit : Int) (hlegible : k.Legible) :
    ∃ n : Bytes → Nat, (∀ p, n p = k.indexedCount p) ∧ k.unclaimedProcessingEntries limit =
      .ok (RedisTransport.uncovered n (k.range (limit - 1))) := by
  obtain ⟨hfields, hmembers⟩ := hlegible
  rcases mapM_decode k.index with
    ⟨ids, hids, hmem, -⟩ | ⟨⟨m, hm, hbad⟩, -⟩
  · rcases countIndexed_spec ids k.claims (n := fun _ => 0) with
      ⟨n, hn, hcount, -⟩ | ⟨⟨c, hc, hbad⟩, -⟩
    · refine ⟨n, fun p => ?_, by simp [unclaimedProcessingEntries, hids, hn, bind, Except.bind,
        pure, Except.pure]⟩
      rw [hcount p, Nat.zero_add]
      refine List.countP_congr fun c _ => ?_
      have hiff : NamesClaim ids c.1 ↔ k.Indexed c.1 := by simp only [NamesClaim, Indexed, hmem]
      simp only [decide_eq_true_eq, hiff]
    · rw [hfields c hc] at hbad
      cases hbad
  · rw [hmembers m hm] at hbad
    cases hbad

theorem unclaimed_illegible {limit : Int} (h : ¬ k.Legible) :
    k.unclaimedProcessingEntries limit = .error (.other "UnicodeDecodeError") := by
  rcases mapM_decode k.index with
    ⟨ids, hids, -, hmembers⟩ | ⟨-, herr⟩
  · rcases countIndexed_spec ids k.claims (n := fun _ => 0) with
      ⟨n, -, -, hfields⟩ | ⟨-, herr⟩
    · exact absurd ⟨hfields, hmembers⟩ h
    · simp [unclaimedProcessingEntries, hids, herr, bind, Except.bind]
  · simp [unclaimedProcessingEntries, herr, bind, Except.bind]

/-- Unclaimed entries are counted exactly, unless a name cannot be decoded. -/
theorem unclaimed_counted {limit : Int} (hlimit : 1 ≤ limit) :
    (k.Legible → ∃ reported, k.unclaimedProcessingEntries limit = .ok reported ∧ ∀ p,
      reported.count p = (k.processing.take limit.toNat).count p - k.indexedCount p ∧
      (k.processing.count p ≤ k.indexedCount p → p ∉ reported) ∧
      (k.processing.length ≤ limit →
        reported.count p = k.processing.count p - k.indexedCount p)) ∧
    (¬ k.Legible → k.unclaimedProcessingEntries limit = .error (.other "UnicodeDecodeError")) := by
  refine ⟨fun hlegible => ?_, unclaimed_illegible⟩
  obtain ⟨n, hn, hreported⟩ := unclaimed_legible limit hlegible
  refine ⟨_, hreported, fun p => ?_⟩
  have hcount : (RedisTransport.uncovered n (k.range (limit - 1))).count p =
      (k.processing.take limit.toNat).count p - k.indexedCount p := by
    rw [count_uncovered, range_of_pos hlimit, hn p]
  have hwindow : (k.processing.take limit.toNat).count p ≤ k.processing.count p :=
    (List.take_sublist ..).count_le p
  refine ⟨hcount, fun hcovered => ?_, fun hlength => ?_⟩
  · rw [← List.count_eq_zero]
    omega
  · rw [hcount, List.take_of_length_le (by omega)]

end Counting

end RawKeys

section Wire

variable {Bytes : Type} [DecidableEq Bytes]

/-- A name as a client that does not decode responses gets it. -/
def Reply.named (name : String) : Reply := .bytes name.toUTF8

theorem decode_named {name : String} : RawKeys.decode (.named name) = .ok name := by
  have hvalid : String.fromUTF8? name.toUTF8 = some name := by
    unfold String.fromUTF8?
    rw [String.toUTF8_eq_toByteArray, dif_pos name.isValidUTF8]
    rfl
  simp only [RawKeys.decode, Reply.named, hvalid]

theorem named_injective : Function.Injective Reply.named := by
  intro name name' h
  have hdecode := congrArg RawKeys.decode h
  rwa [decode_named, decode_named, Except.ok.injEq] at hdecode

/-- `_payload_field` and `_claimed_at_field`. -/
def payloadField (claimId : String) : String := claimId ++ ":payload"

def claimedAtField (claimId : String) : String := claimId ++ ":claimed_at"

theorem claimedAtField_ne {claimId claimId' : String} :
    claimedAtField claimId ≠ payloadField claimId' := by
  intro h
  have hlast := congrArg (fun s => s.toList.getLast?) h
  simp [claimedAtField, payloadField, String.toList_append] at hlast

/-- The fields of the claims hash, where every claim has its two. -/
def fieldsOf (stamp : Instant → Bytes) (k : Keys Bytes) : List (Reply × Bytes) :=
  k.claims.entries.flatMap fun e =>
    [(.named (payloadField e.1), e.2.payload), (.named (claimedAtField e.1), stamp e.2.claimedAt)]

omit [DecidableEq Bytes] in
theorem field_injective {suffix i j : String} (h : i ++ suffix = j ++ suffix) : i = j := by
  have hlist := congrArg String.toList h
  rw [String.toList_append, String.toList_append] at hlist
  exact String.toList_injective (List.append_cancel_right hlist)

omit [DecidableEq Bytes] in
theorem fieldsOf_nodup {stamp : Instant → Bytes} {k : Keys Bytes} :
    ((fieldsOf stamp k).map (·.1)).Nodup := by
  rw [fieldsOf, List.map_flatMap, List.nodup_flatMap]
  constructor
  · intro e _
    simpa using fun h => claimedAtField_ne (named_injective h).symm
  · refine (List.nodupKeys_iff_pairwise.mp k.claims.nodupKeys).imp fun {e e'} hne => ?_
    have hpayload : payloadField e.1 ≠ payloadField e'.1 := fun h => hne (field_injective h)
    have hclaimedAt : claimedAtField e.1 ≠ claimedAtField e'.1 := fun h => hne (field_injective h)
    simp [Function.onFun, named_injective.eq_iff, hpayload.symm, hclaimedAt.symm, claimedAtField_ne,
      claimedAtField_ne.symm]

/-- The keys as the commands of `unclaimed_processing_entries` return them. -/
def Keys.raw (stamp : Instant → Bytes) (k : Keys Bytes) : RawKeys Bytes where
  processing := k.processing
  claims := fieldsOf stamp k
  index := (k.members none).map .named
  claims_nodup := fieldsOf_nodup
  index_nodup := by
    refine List.Nodup.map named_injective ?_
    refine (((List.perm_insertionSort _ _).map _).nodup_iff).mpr ?_
    exact (List.filter_sublist.map _).nodup k.index.nodupKeys

omit [DecidableEq Bytes] in
/-- The names that the transport writes are text. -/
theorem raw_legible (stamp : Instant → Bytes) {k : Keys Bytes} : (k.raw stamp).Legible := by
  constructor
  · intro c hc
    obtain ⟨e, -, hc⟩ := List.mem_flatMap.mp hc
    simp only [List.mem_cons, List.not_mem_nil, or_false] at hc
    rcases hc with rfl | rfl <;> (rw [decode_named]; rfl)
  · intro m hm
    obtain ⟨name, -, rfl⟩ := List.mem_map.mp hm
    rw [decode_named]
    rfl

omit [DecidableEq Bytes] in
theorem raw_indexed {stamp : Instant → Bytes} {k : Keys Bytes} {name : String} :
    (k.raw stamp).Indexed (.named name) ↔
      ∃ claimId, name = payloadField claimId ∧ (k.index.lookup claimId).isSome = true := by
  have hmem : ∀ i, (∃ m ∈ (k.raw stamp).index, RawKeys.decode m = .ok i) ↔
      (k.index.lookup i).isSome = true := by
    intro i
    have hmembers : i ∈ k.members none ↔ (k.index.lookup i).isSome = true := by
      rw [mem_members, Option.isSome_iff_exists]
      simp
    rw [← hmembers]
    simp [Keys.raw, decode_named]
  simp only [RawKeys.Indexed, decode_named, Except.ok.injEq, hmem]
  rfl

/-- The indexed claims of a payload are the fields that are counted for it. -/
theorem raw_indexedCount {stamp : Instant → Bytes} {k : Keys Bytes} {p : Bytes} :
    (k.raw stamp).indexedCount p = k.indexed p := by
  have hpayload : ∀ i, (k.raw stamp).Indexed (.named (payloadField i)) ↔
      (k.index.lookup i).isSome = true := by
    intro i
    rw [raw_indexed]
    constructor
    · rintro ⟨j, hj, hsome⟩
      rwa [field_injective hj]
    · exact fun hsome => ⟨i, rfl, hsome⟩
  have hclaimedAt : ∀ i, ¬ (k.raw stamp).Indexed (.named (claimedAtField i)) := by
    intro i h
    obtain ⟨j, hj, -⟩ := raw_indexed.mp h
    exact claimedAtField_ne hj
  have hcount : ∀ l : List (Sigma fun _ : String => ClaimRecord Bytes),
      (l.flatMap fun e => [(Reply.named (payloadField e.1), e.2.payload),
        (Reply.named (claimedAtField e.1), stamp e.2.claimedAt)]).countP
          (fun c => open Classical in decide (c.2 = p ∧ (k.raw stamp).Indexed c.1)) =
      l.countP fun e => decide (e.2.payload = p) && (k.index.lookup e.1).isSome := by
    intro l
    induction l with
    | nil => rfl
    | cons e l ih =>
      rw [List.flatMap_cons, List.countP_append, ih, List.countP_cons, List.countP_cons,
        List.countP_cons]
      simp [hpayload, hclaimedAt]
      omega
  exact hcount k.claims.entries

/-- The server's own `unclaimed_processing_entries` and the one on its keys report the same. -/
theorem raw_unclaimed {stamp : Instant → Bytes} {k : Keys Bytes} {limit : Int} :
    (k.raw stamp).unclaimedProcessingEntries limit =
      .ok (RedisTransport.uncovered k.indexed (k.range (limit - 1))) := by
  obtain ⟨n, hn, hreported⟩ := RawKeys.unclaimed_legible limit (raw_legible stamp)
  have hn' : n = k.indexed := funext fun p => (hn p).trans raw_indexedCount
  rw [hreported, hn']
  rfl

end Wire

section Sample

/-- Two entries of one payload, of which a claim in the index covers one. The claim that is not in
the index covers none. -/
def sampleRawKeys : RawKeys Nat where
  processing := [7, 8, 7]
  claims := [(.bytes "a:payload".toUTF8, 7), (.bytes "b:payload".toUTF8, 8)]
  index := [.bytes "a".toUTF8]
  claims_nodup := by decide
  index_nodup := by decide

theorem unclaimed_counted_sample : ∃ reported,
    sampleRawKeys.unclaimedProcessingEntries 2 = .ok reported ∧ ∀ p,
      reported.count p = ([7, 8].count p) - sampleRawKeys.indexedCount p := by
  have hlegible : sampleRawKeys.Legible := by
    constructor
    · decide
    · decide
  obtain ⟨reported, hreported, hcount⟩ :=
    (RawKeys.unclaimed_counted (show (1 : Int) ≤ 2 by decide)).1 hlegible
  exact ⟨reported, hreported, fun p => (hcount p).1⟩

/-- A foreign field whose name is not text. -/
def foreignRawKeys : RawKeys Nat where
  processing := [7]
  claims := [(.bytes ⟨#[255]⟩, 9)]
  index := []
  claims_nodup := by decide
  index_nodup := by decide

/-- One foreign field with a name that is not text, and nothing is reported. -/
theorem foreign_name_raises :
    foreignRawKeys.unclaimedProcessingEntries 1 = .error (.other "UnicodeDecodeError") ∧
    ¬ ∃ reported, foreignRawKeys.unclaimedProcessingEntries 1 = .ok reported ∧
      reported.count 7 = (foreignRawKeys.processing.take 1).count 7 - foreignRawKeys.indexedCount 7 := by
  have hraises : foreignRawKeys.unclaimedProcessingEntries 1 =
      .error (.other "UnicodeDecodeError") := by decide
  refine ⟨hraises, ?_⟩
  rintro ⟨reported, hreported, -⟩
  rw [hraises] at hreported
  cases hreported

end Sample

end Pybus.Redis
