import Vera.Core.TokenStatus
import Vera.Feegrant.Keys

/-!
# The indices of bearer tokens

Beside the records there are two indices, of the tokens of a DID and of those of an account. An entry of an index is a key
only: the owner and the hash of the token, each with its length before it. The lookups scan the entries that start with the
owner and read the hash from each key (`x/core/keeper/jws_token.go`, `x/core/types/keys.go`).
-/

namespace Vera.Core

open Eff KVStore List Outcome
open Bytes (str)
open Feegrant (KeyPart parseLengthPrefixedBytes parseLengthPrefixedBytes_append key_inj parsePart_append)

/-- `address.LengthPrefix`: an empty string stays empty, and one of more than 255 bytes is refused. -/
structure LengthPrefixes (Γ : Sdk) : Prop where
  none_of_empty : Γ.lengthPrefixed [] = some []
  part : ∀ p : KeyPart, Γ.lengthPrefixed p.bytes = some p.lengthPrefixed
  none_of_long : ∀ b : Bytes, 255 < b.length → Γ.lengthPrefixed b = none

variable (Γ : Sdk)

/-! ## Deletion and lookups -/

def unindexByDID (record : JWSTokenRecord) (tokenHash : Bytes) : Eff State Error Unit := do
  let didKey ← Eff.lift (jwsTokenIndexKey Γ record.issuerDid tokenHash)
  Eff.modify fun s => { s with byDID := s.byDID.delete didKey }

/-- The key of the account index is deleted, for a record with an account. -/
def unindexByAccount (record : JWSTokenRecord) (tokenHash : Bytes) : Eff State Error Unit :=
  if record.authorizedAccount ≠ [] then do
    let accountKey ← Eff.lift (jwsTokenIndexKey Γ record.authorizedAccount tokenHash)
    Eff.modify fun s => { s with byAccount := s.byAccount.delete accountKey }
  else pure ()

/-- Delete a record and its entries in the indices. -/
def deleteJWSToken (tokenHash : Bytes) : Eff State Error Unit := do
  let record ← foundJWSToken tokenHash
  Eff.modify fun s => { s with tokens := s.tokens.delete tokenHash }
  unindexByDID Γ record tokenHash
  unindexByAccount Γ record tokenHash

/-- The owner and the hash of a key of an index: `ParseJWSTokenByDIDKey` and `ParseJWSTokenByAccountKey`. -/
def parseJWSTokenIndexKey (key : Bytes) : Outcome Error (Bytes × Bytes) :=
  if key = [] then .err (plainError "empty key" [])
  else do
    let (ownerLen, ownerLenEndIndex) ← parseLengthPrefixedBytes key 0 1
    let (owner, ownerEndIndex) ← parseLengthPrefixedBytes key (ownerLenEndIndex + 1) (ownerLen.headD 0).toNat
    let (tokenHashLen, tokenHashLenEndIndex) ← parseLengthPrefixedBytes key (ownerEndIndex + 1) 1
    let (tokenHash, _) ← parseLengthPrefixedBytes key (tokenHashLenEndIndex + 1) (tokenHashLen.headD 0).toNat
    pure (owner, tokenHash)

/-- The record of a key of an index; a key that cannot be parsed is skipped, and so is one without a record. -/
def State.tokenOfKey (s : State) (key : Bytes) : Outcome Error (Option JWSTokenRecord) :=
  match parseJWSTokenIndexKey key with
  | .ok (_, tokenHash) => .ok (s.tokens.get tokenHash)
  | .err _ => .ok none
  | .panic m => .panic m

def State.tokensOfKeys (s : State) : List Bytes → Outcome Error (List JWSTokenRecord)
  | [] => .ok []
  | key :: rest => do
    let record ← s.tokenOfKey key
    let records ← s.tokensOfKeys rest
    pure (record.toList ++ records)

def State.tokensBy (s : State) (index : KVStore Bytes Bytes) (owner : Bytes) : Outcome Error (List JWSTokenRecord) := do
  let scan ← mustLengthPrefixed Γ owner
  s.tokensOfKeys ((index.entries.map Prod.fst).filter fun key => scan.isPrefixOf key)

def State.getJWSTokensByDID (s : State) (did : Bytes) : Outcome Error (List JWSTokenRecord) := s.tokensBy Γ s.byDID did

def State.getJWSTokensByAccount (s : State) (account : Bytes) : Outcome Error (List JWSTokenRecord) :=
  s.tokensBy Γ s.byAccount account

variable {Γ}

/-! ## Keys of an index -/

variable {owner tokenHash key : Bytes}

theorem jwsTokenIndexKey_eq_ok (laws : LengthPrefixes Γ) (how : owner ≠ [])
    (hh : tokenHash ≠ []) (h : jwsTokenIndexKey Γ owner tokenHash = .ok key) :
    ∃ o t : KeyPart, o.bytes = owner ∧ t.bytes = tokenHash ∧ key = o.lengthPrefixed ++ t.lengthPrefixed := by
  have hpa : ∀ b k : Bytes, b ≠ [] → mustLengthPrefixed Γ b = .ok k → ∃ p : KeyPart, p.bytes = b ∧ k = p.lengthPrefixed := by
    intro b k hne hk
    by_cases hl : b.length ≤ 255
    · have hp := laws.part ⟨b, hne, hl⟩
      simp only [mustLengthPrefixed, hp] at hk
      exact ⟨⟨b, hne, hl⟩, rfl, (Outcome.ok.inj hk).symm⟩
    · simp only [mustLengthPrefixed, laws.none_of_long b (Nat.lt_of_not_le hl)] at hk
      cases hk
  obtain ⟨o, ho, hrest⟩ := bind_eq_ok.1 h
  obtain ⟨t, ht, hke⟩ := bind_eq_ok.1 hrest
  obtain ⟨po, hpo, rfl⟩ := hpa owner o how ho
  obtain ⟨pt, hpt, rfl⟩ := hpa tokenHash t hh ht
  exact ⟨po, pt, hpo, hpt, (pure_eq_ok.1 hke).symm⟩

theorem jwsTokenIndexKey_inj {owner' tokenHash' : Bytes} (laws : LengthPrefixes Γ) (how : owner ≠ [])
    (how' : owner' ≠ []) (hh : tokenHash ≠ []) (hh' : tokenHash' ≠ [])
    (h : jwsTokenIndexKey Γ owner tokenHash = .ok key) (h' : jwsTokenIndexKey Γ owner' tokenHash' = .ok key) :
    owner = owner' ∧ tokenHash = tokenHash' := by
  obtain ⟨o, t, rfl, rfl, hke⟩ := jwsTokenIndexKey_eq_ok laws how hh h
  obtain ⟨o', t', rfl, rfl, hke'⟩ := jwsTokenIndexKey_eq_ok laws how' hh' h'
  obtain ⟨ht, ho⟩ := key_inj (u := []) (v := []) rfl (hke.symm.trans hke')
  rw [ht, ho]
  exact ⟨rfl, rfl⟩

theorem isPrefixOf_indexKey {o o' t : KeyPart} :
    o.lengthPrefixed.isPrefixOf (o'.lengthPrefixed ++ t.lengthPrefixed) = true ↔ o = o' := by
  rw [ isPrefixOf_iff_prefix]
  constructor
  · rintro ⟨rest, hrest⟩
    have ho := parsePart_append (ε := Unit) [] rest o
    have ho' := parsePart_append (ε := Unit) [] t.lengthPrefixed o'
    have hke : [] ++ o.lengthPrefixed ++ rest = [] ++ o'.lengthPrefixed ++ t.lengthPrefixed := hrest
    rw [hke, ho'] at ho
    exact (Prod.mk.inj (Outcome.ok.inj ho)).1.symm
  · rintro rfl
    exact prefix_append _ _

theorem parseJWSTokenIndexKey_indexKey (o t : KeyPart) :
    parseJWSTokenIndexKey (o.lengthPrefixed ++ t.lengthPrefixed) = .ok (o.bytes, t.bytes) := by
  have hke : o.lengthPrefixed ++ t.lengthPrefixed =
      [UInt8.ofNat o.bytes.length] ++ o.bytes ++ [UInt8.ofNat t.bytes.length] ++ t.bytes := by
    simp [KeyPart.lengthPrefixed]
  have how := parseLengthPrefixedBytes_append (ε := Error) [] [UInt8.ofNat o.bytes.length]
    (o.bytes ++ [UInt8.ofNat t.bytes.length] ++ t.bytes)
  have hown := parseLengthPrefixedBytes_append (ε := Error) [UInt8.ofNat o.bytes.length] o.bytes
    ([UInt8.ofNat t.bytes.length] ++ t.bytes)
  have hh := parseLengthPrefixedBytes_append (ε := Error) ([UInt8.ofNat o.bytes.length] ++ o.bytes)
    [UInt8.ofNat t.bytes.length] t.bytes
  have hha := parseLengthPrefixedBytes_append (ε := Error)
    ([UInt8.ofNat o.bytes.length] ++ o.bytes ++ [UInt8.ofNat t.bytes.length]) t.bytes []
  simp only [append_assoc, nil_append, append_nil, length_append, length_singleton, length_nil] at how hown hh hha hke
  rw [hke]
  unfold parseJWSTokenIndexKey
  rw [if_neg (by simp), bind_eq_ok]
  refine ⟨_, how, ?_⟩
  rw [bind_eq_ok]
  refine ⟨(o.bytes, 1 + o.bytes.length - 1), by simpa [o.toNat_length] using hown, ?_⟩
  rw [bind_eq_ok]
  have hen : 1 + o.bytes.length - 1 + 1 = 1 + o.bytes.length := by omega
  refine ⟨([UInt8.ofNat t.bytes.length], 1 + o.bytes.length + 1 - 1), by rw [hen]; exact hh, ?_⟩
  rw [bind_eq_ok]
  have hen' : 1 + o.bytes.length + 1 - 1 + 1 = 1 + (o.bytes.length + 1) := by omega
  refine ⟨(t.bytes, 1 + (o.bytes.length + 1) + t.bytes.length - 1), ?_, rfl⟩
  rw [hen', headD_cons, t.toNat_length]
  exact hha

/-! ## Exact indices -/

/-- An index has exactly one entry for each record that has an owner. -/
structure Indexes (Γ : Sdk) (owner : JWSTokenRecord → Bytes) (tokens : KVStore Bytes JWSTokenRecord)
    (index : KVStore Bytes Bytes) : Prop where
  entry : ∀ key v, index.get key = some v → v = [0x01] ∧ ∃ tokenHash r, tokens.get tokenHash = some r ∧ owner r ≠ [] ∧
    jwsTokenIndexKey Γ (owner r) tokenHash = .ok key
  complete : ∀ tokenHash r, tokens.get tokenHash = some r → owner r ≠ [] →
    ∃ key, jwsTokenIndexKey Γ (owner r) tokenHash = .ok key ∧ index.get key = some [0x01]

namespace Indexes

variable {owner : JWSTokenRecord → Bytes} {tokens : KVStore Bytes JWSTokenRecord} {index index' : KVStore Bytes Bytes}
  {tokenHash key : Bytes} {r : JWSTokenRecord}

theorem empty : Indexes Γ owner KVStore.empty KVStore.empty :=
  ⟨fun _ _ h => (nomatch h), fun _ _ h => nomatch h⟩

theorem unique (h : Indexes Γ owner tokens index) (h' : Indexes Γ owner tokens index') : index = index' := by
  have hle : ∀ {i j : KVStore Bytes Bytes}, Indexes Γ owner tokens i → Indexes Γ owner tokens j → ∀ key v,
      i.get key = some v → j.get key = some v := by
    intro i j hi hj key v hget
    obtain ⟨rfl, tokenHash, r, hr, how, hke⟩ := hi.entry key v hget
    obtain ⟨key', hke', hget'⟩ := hj.complete tokenHash r hr how
    rw [hke] at hke'
    rwa [Outcome.ok.inj hke']
  refine ext_get fun key => ?_
  cases hget : index.get key with
  | some v => exact (hle h h' key v hget).symm
  | none =>
    cases hget' : index'.get key with
    | none => rfl
    | some v => exact hget.symm.trans (hle h' h key v hget')

/-- A record with an owner is stored and its entry made; the record in its place had the same owner. -/
theorem set (h : Indexes Γ owner tokens index) (hsame : ∀ old, tokens.get tokenHash = some old → owner old = owner r)
    (how : owner r ≠ []) (hke : jwsTokenIndexKey Γ (owner r) tokenHash = .ok key) :
    Indexes Γ owner (tokens.set tokenHash r) (index.set key [0x01]) := by
  refine ⟨fun key' v hget => ?_, fun hash r' hr' how' => ?_⟩
  · rw [get_set] at hget
    split at hget
    · rename_i heq
      exact ⟨(Option.some.inj hget).symm, tokenHash, r, get_set_self _ _ _, how, heq ▸ hke⟩
    · obtain ⟨hv, hash, r', hr', how', hke'⟩ := h.entry key' v hget
      by_cases hh : hash = tokenHash
      · subst hh
        have hown := hsame r' hr'
        exact ⟨hv, hash, r, get_set_self _ _ _, how, hown ▸ hke'⟩
      · exact ⟨hv, hash, r', by rw [get_set_of_ne _ _ hh, hr'], how', hke'⟩
  · rw [get_set] at hr'
    split at hr'
    · rename_i hh
      obtain rfl := Option.some.inj hr'
      exact ⟨key, hh ▸ hke, get_set_self _ _ _⟩
    · obtain ⟨key', hke', hget⟩ := h.complete hash r' hr' how'
      refine ⟨key', hke', ?_⟩
      rw [get_set]
      split
      · rfl
      · exact hget

theorem set_unowned (h : Indexes Γ owner tokens index) (hsame : ∀ old, tokens.get tokenHash = some old → owner old = owner r)
    (how : owner r = []) : Indexes Γ owner (tokens.set tokenHash r) index := by
  refine ⟨fun key' v hget => ?_, fun hash r' hr' how' => ?_⟩
  · obtain ⟨hv, hash, r', hr', how', hke'⟩ := h.entry key' v hget
    refine ⟨hv, hash, r', ?_, how', hke'⟩
    rw [get_set_of_ne _ _ fun heq => ?_, hr']
    exact how' ((hsame r' (heq ▸ hr')).trans how)
  · rw [get_set] at hr'
    split at hr'
    · rw [← Option.some.inj hr'] at how'
      exact absurd how how'
    · exact h.complete hash r' hr' how'

theorem delete (laws : LengthPrefixes Γ) (hh : ∀ hash r', tokens.get hash = some r' → hash ≠ [])
    (h : Indexes Γ owner tokens index) (hr : tokens.get tokenHash = some r) (how : owner r ≠ [])
    (hke : jwsTokenIndexKey Γ (owner r) tokenHash = .ok key) :
    Indexes Γ owner (tokens.delete tokenHash) (index.delete key) := by
  refine ⟨fun key' v hget => ?_, fun hash r' hr' how' => ?_⟩
  · rw [get_delete] at hget
    split at hget
    · cases hget
    rename_i hne
    obtain ⟨hv, hash, r', hr', how', hke'⟩ := h.entry key' v hget
    refine ⟨hv, hash, r', ?_, how', hke'⟩
    rw [get_delete, if_neg fun heq => ?_, hr']
    subst heq
    obtain rfl := Option.some.inj (hr.symm.trans hr')
    rw [hke] at hke'
    exact hne (Outcome.ok.inj hke').symm
  · rw [get_delete] at hr'
    split at hr'
    · cases hr'
    rename_i hne
    obtain ⟨key', hke', hget⟩ := h.complete hash r' hr' how'
    refine ⟨key', hke', ?_⟩
    rw [get_delete, if_neg fun heq => ?_, hget]
    subst heq
    exact hne (jwsTokenIndexKey_inj laws how' how (hh hash r' hr') (hh tokenHash r hr) hke' hke).2

theorem delete_unowned (h : Indexes Γ owner tokens index) (hr : tokens.get tokenHash = some r) (how : owner r = []) :
    Indexes Γ owner (tokens.delete tokenHash) index := by
  refine ⟨fun key' v hget => ?_, fun hash r' hr' how' => ?_⟩
  · obtain ⟨hv, hash, r', hr', how', hke'⟩ := h.entry key' v hget
    refine ⟨hv, hash, r', ?_, how', hke'⟩
    rw [get_delete, if_neg fun heq => ?_, hr']
    subst heq
    obtain rfl := Option.some.inj (hr.symm.trans hr')
    exact how' how
  · rw [get_delete] at hr'
    split at hr'
    · cases hr'
    · exact h.complete hash r' hr' how'

/-! ### What a scan of an exact index finds -/

theorem scan (laws : LengthPrefixes Γ) (h : Indexes Γ owner tokens index) (o : KeyPart)
    (hh : ∀ hash r', tokens.get hash = some r' → hash ≠ []) :
    ∃ ha : List KeyPart, ha.Nodup ∧ ((index.entries.map Prod.fst).filter fun k => o.lengthPrefixed.isPrefixOf k) =
        ha.map (fun t => o.lengthPrefixed ++ t.lengthPrefixed) ∧
      ∀ t : KeyPart, t ∈ ha ↔ ∃ r, tokens.get t.bytes = some r ∧ owner r = o.bytes := by
  have hmem : ∀ k, k ∈ (index.entries.map Prod.fst).filter (fun k => o.lengthPrefixed.isPrefixOf k) ↔
      ∃ t : KeyPart, k = o.lengthPrefixed ++ t.lengthPrefixed ∧ ∃ r, tokens.get t.bytes = some r ∧ owner r = o.bytes := by
    intro k
    rw [mem_filter, mem_map]
    constructor
    · rintro ⟨⟨⟨k', v⟩, he, rfl⟩, hs⟩
      obtain ⟨-, hash, r, hr, how, hkey⟩ := h.entry k' v (index.mem_entries.1 he)
      obtain ⟨o', t, ho', rfl, rfl⟩ := jwsTokenIndexKey_eq_ok laws how (hh hash r hr) hkey
      obtain rfl := isPrefixOf_indexKey.1 hs
      exact ⟨t, rfl, r, hr, ho'.symm⟩
    · rintro ⟨t, rfl, r, hr, how⟩
      obtain ⟨key, hkey, hget⟩ := h.complete t.bytes r hr (how ▸ o.nonempty)
      obtain ⟨o', t', ho', ht', hke⟩ := jwsTokenIndexKey_eq_ok laws (how ▸ o.nonempty) t.nonempty hkey
      have ho : o' = o := by
        cases o'
        cases o
        simp_all
      have ht : t' = t := by
        cases t'
        cases t
        simp_all
      rw [ho, ht] at hke
      exact ⟨⟨(key, [0x01]), index.mem_entries.2 hget, hke⟩, isPrefixOf_indexKey.2 rfl⟩
  have hno : ((index.entries.map Prod.fst).filter fun k => o.lengthPrefixed.isPrefixOf k).Nodup := index.nodup_keys.filter _
  generalize ((index.entries.map Prod.fst).filter fun k => o.lengthPrefixed.isPrefixOf k) = keys at hmem hno
  have hl : ∃ ha : List KeyPart, keys = ha.map (fun t => o.lengthPrefixed ++ t.lengthPrefixed) := by
    have hal : ∀ k ∈ keys, ∃ t : KeyPart, o.lengthPrefixed ++ t.lengthPrefixed = k := by
      intro k hk
      obtain ⟨t, rfl, -⟩ := (hmem k).1 hk
      exact ⟨t, rfl⟩
    have hra : keys ∈ Set.range (List.map fun t : KeyPart => o.lengthPrefixed ++ t.lengthPrefixed) := by
      rw [Set.range_list_map]
      exact hal
    obtain ⟨ha, hha⟩ := hra
    exact ⟨ha, hha.symm⟩
  obtain ⟨ha, rfl⟩ := hl
  have hin : ∀ t t' : KeyPart, o.lengthPrefixed ++ t.lengthPrefixed = o.lengthPrefixed ++ t'.lengthPrefixed → t = t' := by
    intro t t' heq
    exact (key_inj (u := []) (v := []) rfl heq).1
  refine ⟨ha, hno.of_map, rfl, fun t => ?_⟩
  have := hmem (o.lengthPrefixed ++ t.lengthPrefixed)
  rw [mem_map] at this
  constructor
  · intro ht
    obtain ⟨t', heq, hr⟩ := this.1 ⟨t, ht, rfl⟩
    exact hin t t' heq ▸ hr
  · intro hr
    obtain ⟨t', ht', heq⟩ := this.2 ⟨t, rfl, hr⟩
    exact hin t' t heq ▸ ht'

end Indexes

/-! ## Lookups -/

theorem State.tokensOfKeys_indexKeys (s : State) (o : KeyPart) (ha : List KeyPart) :
    s.tokensOfKeys (ha.map fun t => o.lengthPrefixed ++ t.lengthPrefixed) =
      .ok (ha.filterMap fun t => s.tokens.get t.bytes) := by
  induction ha with
  | nil => rfl
  | cons t rest ih =>
    have hon : s.tokenOfKey (o.lengthPrefixed ++ t.lengthPrefixed) = .ok (s.tokens.get t.bytes) := by
      unfold State.tokenOfKey
      rw [parseJWSTokenIndexKey_indexKey]
    rw [map_cons, State.tokensOfKeys, hon, ih, filterMap_cons]
    cases s.tokens.get t.bytes with
    | none => rfl
    | some r => rfl

/-- A lookup returns the stored records with a property, each once. -/
def State.ReturnsExactly (s : State) (lookup : Outcome Error (List JWSTokenRecord)) (P : JWSTokenRecord → Prop) : Prop :=
  ∃ records, lookup = .ok records ∧ records.Nodup ∧
    ∀ r, r ∈ records ↔ (∃ tokenHash, s.tokens.get tokenHash = some r) ∧ P r

theorem State.tokensBy_exact (laws : LengthPrefixes Γ) {s : State} {owner : JWSTokenRecord → Bytes} {index : KVStore Bytes Bytes}
    (hs : s.Sound Γ) (h : Indexes Γ owner s.tokens index) (o : KeyPart) :
    s.ReturnsExactly (s.tokensBy Γ index o.bytes) fun r => owner r = o.bytes := by
  have hh : ∀ hash r, s.tokens.get hash = some r → hash ≠ [] := by
    intro hash r hr
    obtain ⟨rfl, hst⟩ := hs hash r hr
    exact hst.tokenHash
  obtain ⟨ha, hno, hke, hmem⟩ := h.scan laws o hh
  refine ⟨ha.filterMap fun t => s.tokens.get t.bytes, ?_, ?_, ?_⟩
  · unfold State.tokensBy mustLengthPrefixed
    rw [laws.part o]
    show s.tokensOfKeys _ = _
    rw [hke]
    exact s.tokensOfKeys_indexKeys o ha
  · refine hno.filterMap fun t t' r hr hr' => ?_
    have hb : t.bytes = t'.bytes := (hs t.bytes r hr).1.symm.trans (hs t'.bytes r hr').1
    cases t
    cases t'
    cases hb
    rfl
  · intro r
    rw [mem_filterMap]
    constructor
    · rintro ⟨t, ht, hr⟩
      obtain ⟨r', hr', how⟩ := (hmem t).1 ht
      obtain rfl := Option.some.inj (hr.symm.trans hr')
      exact ⟨⟨t.bytes, hr⟩, how⟩
    · rintro ⟨⟨hash, hr⟩, how⟩
      have hne : owner r ≠ [] := how ▸ o.nonempty
      obtain ⟨key, hkey, -⟩ := h.complete hash r hr hne
      obtain ⟨_, t, _, rfl, -⟩ := jwsTokenIndexKey_eq_ok laws hne (hh hash r hr) hkey
      exact ⟨t, (hmem t).2 ⟨r, hr, how⟩, hr⟩

/-! ## The calls keep the indices exact -/

/-- The records are sound and both indices exact. -/
structure State.Indexed (Γ : Sdk) (s : State) : Prop where
  sound : s.Sound Γ
  byDID : Indexes Γ (·.issuerDid) s.tokens s.byDID
  byAccount : Indexes Γ (·.authorizedAccount) s.tokens s.byAccount

section Calls

variable {s t : State} {u : Unit}

/-- A store without tokens. -/
structure State.NoTokens (s : State) : Prop where
  tokens : s.tokens = KVStore.empty
  byDID : s.byDID = KVStore.empty
  byAccount : s.byAccount = KVStore.empty

theorem State.NoTokens.indexed (h : s.NoTokens) : s.Indexed Γ := by
  refine ⟨fun k r hr => ?_, ?_, ?_⟩
  · rw [h.tokens] at hr
    cases hr
  · rw [h.tokens, h.byDID]
    exact .empty
  · rw [h.tokens, h.byAccount]
    exact .empty

variable {r : JWSTokenRecord} {tokenHash : Bytes} {ctx : Ctx}

/-- A call writes records with their entries, and neither the parameters nor the chain configuration. -/
structure Rewrites (Γ : Sdk) (s t : State) : Prop where
  indexed : t.Indexed Γ
  params : t.params = s.params
  chainConfig : t.chainConfig = s.chainConfig

theorem State.Indexed.set (hs : s.Indexed Γ) (h : (setJWSToken Γ r).Succeeds s u t)
    (hsame : ∀ old, s.tokens.get r.tokenHash = some old →
      old.issuerDid = r.issuerDid ∧ old.authorizedAccount = r.authorizedAccount) : Rewrites Γ s t := by
  obtain ⟨hst, ht, hcf⟩ := setJWSToken_ok h
  obtain ⟨⟨didKey, hd, hby⟩, hac, hp⟩ := (setJWSToken_inv h).2
  refine ⟨⟨?_, ?_, ?_⟩, hp, hcf⟩
  · unfold State.Sound
    rw [ht, hcf]
    exact All.set hs.sound ⟨rfl, hst⟩
  · rw [ht, hby]
    exact hs.byDID.set (fun old hold => (hsame old hold).1) hst.issuerDid hd
  · rw [ht]
    rcases hac with ⟨hnone, hb⟩ | ⟨hg, accountKey, ha, hb⟩
    · rw [hb]
      exact hs.byAccount.set_unowned (fun old hold => (hsame old hold).2) hnone
    · rw [hb]
      exact hs.byAccount.set (fun old hold => (hsame old hold).2) hg ha

theorem State.Indexed.update (hs : s.Indexed Γ) {r' : JWSTokenRecord}
    (hget : s.tokens.get tokenHash = some r) (h : (setJWSToken Γ r').Succeeds s u t) (hh : r'.tokenHash = r.tokenHash)
    (hd : r'.issuerDid = r.issuerDid) (ha : r'.authorizedAccount = r.authorizedAccount) : Rewrites Γ s t := by
  refine hs.set h fun old hold => ?_
  rw [hh, (hs.sound tokenHash r hget).1, hget] at hold
  obtain rfl := Option.some.inj hold
  exact ⟨hd.symm, ha.symm⟩

theorem storeOrUpdateJWSToken_rewrites (hs : s.Indexed Γ) {bearerToken issuerDid authorizedAccount : Bytes}
    {issuedAt expiresAt : Time}
    (h : (storeOrUpdateJWSToken Γ ctx bearerToken issuerDid authorizedAccount issuedAt expiresAt).Succeeds s u t) :
    Rewrites Γ s t := by
  unfold Eff.Succeeds storeOrUpdateJWSToken at h
  split at h
  · split at h
    · cases h
    · obtain ⟨r, hget, hse⟩ := update_sets (f := (·.used ctx.blockTime)) h
      exact hs.update hget hse rfl rfl rfl
  · rename_i hnone
    split at h
    · cases h
    · refine hs.set h fun old hold => ?_
      cases hnone.symm.trans hold

theorem updateJWSTokenStatus_rewrites (hs : s.Indexed Γ) {status : JWSTokenStatus}
    {invalidatedBy : Bytes} (h : (updateJWSTokenStatus Γ ctx tokenHash status invalidatedBy).Succeeds s u t) :
    Rewrites Γ s t := by
  obtain ⟨r, hget, hse⟩ := update_sets (f := (·.withStatus status ctx.blockTime invalidatedBy)) h
  refine hs.update hget hse ?_ ?_ ?_
  all_goals
    unfold JWSTokenRecord.withStatus
    split <;> rfl

theorem deleteJWSToken_ok (h : (deleteJWSToken Γ tokenHash).Succeeds s u t) :
    ∃ r didKey, s.tokens.get tokenHash = some r ∧ t.tokens = s.tokens.delete tokenHash ∧ t.chainConfig = s.chainConfig ∧
      jwsTokenIndexKey Γ r.issuerDid tokenHash = .ok didKey ∧ t.byDID = s.byDID.delete didKey ∧
      ((r.authorizedAccount = [] ∧ t.byAccount = s.byAccount) ∨ r.authorizedAccount ≠ [] ∧ ∃ accountKey,
        jwsTokenIndexKey Γ r.authorizedAccount tokenHash = .ok accountKey ∧
          t.byAccount = s.byAccount.delete accountKey) := by
  unfold deleteJWSToken at h
  obtain ⟨r, s₁, hf, hrest⟩ := bind_ok.1 h
  obtain ⟨hget, rfl⟩ := foundJWSToken_ok.1 hf
  rw [modify_bind_ok] at hrest
  obtain ⟨_, s₂, hdi, ha⟩ := bind_ok.1 hrest
  unfold unindexByDID at hdi
  rw [lift_bind_ok] at hdi
  obtain ⟨didKey, hd, hs⟩ := hdi
  rw [modify_ok] at hs
  subst hs
  refine ⟨r, didKey, hget, ?_⟩
  unfold unindexByAccount at ha
  split at ha
  · rename_i hg
    rw [lift_bind_ok] at ha
    obtain ⟨accountKey, hac, hs⟩ := ha
    rw [modify_ok] at hs
    subst hs
    exact ⟨rfl, rfl, hd, rfl, .inr ⟨hg, accountKey, hac, rfl⟩⟩
  · rename_i hg
    obtain ⟨-, rfl⟩ := pure_ok.1 ha
    exact ⟨rfl, rfl, hd, rfl, .inl ⟨not_not.1 hg, rfl⟩⟩

theorem deleteJWSToken_indexed (laws : LengthPrefixes Γ) (hs : s.Indexed Γ)
    (h : (deleteJWSToken Γ tokenHash).Succeeds s u t) : t.Indexed Γ := by
  obtain ⟨r, didKey, hget, ht, hcf, hd, hby, hac⟩ := deleteJWSToken_ok h
  have hh : ∀ hash r', s.tokens.get hash = some r' → hash ≠ [] := by
    intro hash r' hr'
    obtain ⟨rfl, hst⟩ := hs.sound hash r' hr'
    exact hst.tokenHash
  refine ⟨fun k r' hr' => ?_, ?_, ?_⟩
  · rw [ht, get_delete] at hr'
    rw [hcf]
    split at hr'
    · cases hr'
    · exact hs.sound k r' hr'
  · rw [ht, hby]
    exact hs.byDID.delete laws hh hget (hs.sound tokenHash r hget).2.issuerDid hd
  · rw [ht]
    rcases hac with ⟨hnone, hb⟩ | ⟨hg, accountKey, ha, hb⟩
    · rw [hb]
      exact hs.byAccount.delete_unowned hget hnone
    · rw [hb]
      exact hs.byAccount.delete laws hh hget hg ha

end Calls

/-! ## Runs -/

/-- A call that writes records and indices. A call that fails is undone. -/
inductive IndexCall where
  | storeOrUpdateJWSToken (ctx : Ctx) (bearerToken issuerDid authorizedAccount : Bytes) (issuedAt expiresAt : Time)
  | updateJWSTokenStatus (ctx : Ctx) (tokenHash : Bytes) (status : JWSTokenStatus) (invalidatedBy : Bytes)
  | deleteJWSToken (tokenHash : Bytes)

def indexStep (Γ : Sdk) (s : State) : IndexCall → State
  | .storeOrUpdateJWSToken ctx bearerToken issuerDid authorizedAccount issuedAt expiresAt =>
    (storeOrUpdateJWSToken Γ ctx bearerToken issuerDid authorizedAccount issuedAt expiresAt).commit s
  | .updateJWSTokenStatus ctx tokenHash status invalidatedBy =>
    (updateJWSTokenStatus Γ ctx tokenHash status invalidatedBy).commit s
  | .deleteJWSToken tokenHash => (deleteJWSToken Γ tokenHash).commit s

theorem indexStep_indexed (laws : LengthPrefixes Γ) (s : State) (c : IndexCall) (hs : s.Indexed Γ) :
    (indexStep Γ s c).Indexed Γ := by
  cases c with
  | storeOrUpdateJWSToken ctx bearerToken issuerDid authorizedAccount issuedAt expiresAt =>
    exact commit_of_ok hs fun _ _ h => (storeOrUpdateJWSToken_rewrites hs h).indexed
  | updateJWSTokenStatus ctx tokenHash status invalidatedBy =>
    exact commit_of_ok hs fun _ _ h => (updateJWSTokenStatus_rewrites hs h).indexed
  | deleteJWSToken tokenHash => exact commit_of_ok hs fun _ _ h => deleteJWSToken_indexed laws hs h

/-- In every run from a store without tokens, for every DID and every account of 1 to 255 bytes the lookup by DID returns
exactly the records that the DID issued, the lookup by account exactly those that authorize the account, each once; and every
entry of an index is that of a stored record. -/
theorem token_lookups_exact (Γ : Sdk) (laws : LengthPrefixes Γ) (s₀ : State) (h₀ : s₀.NoTokens) (calls : List IndexCall) :
    let s := Run.run (indexStep Γ) s₀ calls
    (∀ did : Bytes, did ≠ [] → did.length ≤ 255 → s.ReturnsExactly (s.getJWSTokensByDID Γ did) fun r => r.issuerDid = did) ∧
    (∀ account : Bytes, account ≠ [] → account.length ≤ 255 →
      s.ReturnsExactly (s.getJWSTokensByAccount Γ account) fun r => r.authorizedAccount = account) ∧
    (∀ key v, s.byDID.get key = some v → ∃ tokenHash r, s.tokens.get tokenHash = some r ∧
      jwsTokenIndexKey Γ r.issuerDid tokenHash = .ok key) ∧
    ∀ key v, s.byAccount.get key = some v → ∃ tokenHash r, s.tokens.get tokenHash = some r ∧
      jwsTokenIndexKey Γ r.authorizedAccount tokenHash = .ok key := by
  have hs : (Run.run (indexStep Γ) s₀ calls).Indexed Γ :=
    Run.run_invariant (indexStep Γ) (I := State.Indexed Γ) (indexStep_indexed laws) h₀.indexed calls
  refine ⟨fun did hne hl => ?_, fun account hne hl => ?_, fun key v hget => ?_, fun key v hget => ?_⟩
  · exact State.tokensBy_exact laws hs.sound hs.byDID ⟨did, hne, hl⟩
  · exact State.tokensBy_exact laws hs.sound hs.byAccount ⟨account, hne, hl⟩
  · obtain ⟨-, tokenHash, r, hr, -, hke⟩ := hs.byDID.entry key v hget
    exact ⟨tokenHash, r, hr, hke⟩
  · obtain ⟨-, tokenHash, r, hr, -, hke⟩ := hs.byAccount.entry key v hget
    exact ⟨tokenHash, r, hr, hke⟩

/-! ## The empty owner, and a long one -/

namespace Respelled

/-- The codec with the length prefixes of the SDK. -/
def lengthSdk : Sdk :=
  { sdk with
    lengthPrefixed := fun b => if b = [] then some [] else if b.length ≤ 255 then some (UInt8.ofNat b.length :: b) else none }

theorem lengthSdk_lengthPrefixes : LengthPrefixes lengthSdk where
  none_of_empty := rfl
  part p := by
    show (if p.bytes = [] then some [] else if p.bytes.length ≤ 255 then some (UInt8.ofNat p.bytes.length :: p.bytes) else none) = _
    rw [if_neg p.nonempty, if_pos p.short]
    rfl
  none_of_long b hl := by
    have hne : b ≠ [] := by
      rintro rfl
      exact absurd hl (by decide)
    show (if b = [] then some [] else if b.length ≤ 255 then some (UInt8.ofNat b.length :: b) else none) = none
    rw [if_neg hne, if_neg (Nat.not_le_of_lt hl)]

def usedOnce : List IndexCall := [.storeOrUpdateJWSToken ctx token did account (Time.ofUnix 1000) (Time.ofUnix 2000)]

end Respelled

open Respelled in
/-- The token is found under its DID. -/
theorem token_lookups_exact_used : ∃ records,
    (Run.run (indexStep lengthSdk) genesis usedOnce).getJWSTokensByDID lengthSdk did = .ok records ∧
      ∀ r, r ∈ records ↔ (∃ tokenHash, (Run.run (indexStep lengthSdk) genesis usedOnce).tokens.get tokenHash = some r) ∧
        r.issuerDid = did := by
  obtain ⟨records, hl, -, hmem⟩ :=
    (token_lookups_exact lengthSdk lengthSdk_lengthPrefixes genesis ⟨rfl, rfl, rfl⟩ usedOnce).1 did (by decide +kernel)
      (by decide +kernel)
  exact ⟨records, hl, hmem⟩

open Respelled in
/-- The lookups of the empty string return the token of another owner, and the lookup of an account of 256 bytes panics. -/
theorem token_lookups_exact_false :
    let s := Run.run (indexStep lengthSdk) genesis usedOnce
    (¬s.ReturnsExactly (s.getJWSTokensByDID lengthSdk []) fun r => r.issuerDid = []) ∧
    (¬s.ReturnsExactly (s.getJWSTokensByAccount lengthSdk []) fun r => r.authorizedAccount = []) ∧
    ¬s.ReturnsExactly (s.getJWSTokensByAccount lengthSdk (List.replicate 256 0x61)) fun r =>
      r.authorizedAccount = List.replicate 256 0x61 := by
  let record := newRecord ctx token did account (Time.ofUnix 1000) (Time.ofUnix 2000)
  refine ⟨?_, ?_, ?_⟩
  · rintro ⟨records, hl, -, hmem⟩
    have hr : (Run.run (indexStep lengthSdk) genesis usedOnce).getJWSTokensByDID lengthSdk [] = .ok [record] := by
      decide +kernel
    obtain rfl := Outcome.ok.inj (hr.symm.trans hl)
    exact absurd ((hmem record).1 mem_cons_self).2 (by decide +kernel)
  · rintro ⟨records, hl, -, hmem⟩
    have hr : (Run.run (indexStep lengthSdk) genesis usedOnce).getJWSTokensByAccount lengthSdk [] = .ok [record] := by
      decide +kernel
    obtain rfl := Outcome.ok.inj (hr.symm.trans hl)
    exact absurd ((hmem record).1 mem_cons_self).2 (by decide +kernel)
  · rintro ⟨records, hl, -⟩
    have hr : (Run.run (indexStep lengthSdk) genesis usedOnce).getJWSTokensByAccount lengthSdk (List.replicate 256 0x61) =
        .panic "address length should be max 255 bytes" := by decide +kernel
    cases hr.symm.trans hl

end Vera.Core
