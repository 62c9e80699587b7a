import Vera.Lib.Bytes
import Vera.Lib.KVStore
import Vera.Lib.Run

/-!
# The faucet

`app/faucet.go`. A handler looks the address of a request up in the faucet's store, broadcasts a transfer and then records the
address. These are steps of their own, with other handlers' steps between them, and the store is keyed by the text of the request,
where an account has more than one spelling.
-/

namespace Vera.App.Faucet

open KVStore List
open Bytes (str)

structure FaucetRequestRecord where
  address : Bytes
  amount : Bytes × Int
  txHash : Bytes

/-- The SDK's addresses, and the faucet's store. -/
structure FaucetEnv where
  accAddressFromBech32 : Bytes → Except Bytes Bytes
  accAddressString : Bytes → Bytes
  /-- Whether the store of the faucet is found. -/
  mounted : Bool
  marshal : FaucetRequestRecord → Except Bytes Bytes

/-- A request that passed the check: the account it names, and the hash of the transfer once it is broadcast. -/
structure Handler where
  address : Bytes
  account : Bytes
  txHash : Option Bytes
  deriving DecidableEq

/-- The store, the handlers at work and the accounts of all transfers. -/
structure State where
  store : KVStore Bytes Bytes
  inFlight : List Handler
  transfers : List Bytes

/-- What a client is told when a request is refused: the text and the status. -/
structure Refusal where
  text : Bytes
  status : Nat

/-- What `BroadcastTxSync` returns. -/
structure TxResponse where
  code : UInt32
  txHash : Bytes

variable (Γ : FaucetEnv)

def microOpenDenom : Bytes := str "uopen"

/-- `FaucetRequestAmount`. -/
def faucetRequestAmount : Int := 1000000000

def hasAddressRequested (s : State) (address : Bytes) : Bool := Γ.mounted && (s.store.get address).isSome

def recordAddressRequested (s : State) (address : Bytes) (amount : Bytes × Int) (txHash : Bytes) : Except Bytes State :=
  if Γ.mounted then
    match Γ.marshal ⟨address, amount, txHash⟩ with
    | .error e => .error (str "failed to marshal faucet request: " ++ e)
    | .ok bz => .ok { s with store := s.store.set address bz }
  else .error (str "faucet store not found")

/-- The first part of `handleFaucetRequest`, up to the network. -/
def checkRequest (s : State) (address : Bytes) : Except Refusal Handler :=
  match Γ.accAddressFromBech32 address with
  | .error _ => .error ⟨str "Invalid address", 400⟩
  | .ok account =>
    if hasAddressRequested Γ s address then .error ⟨str "Address has already requested funds from the faucet", 403⟩
    else .ok ⟨address, account, none⟩

/-- A request arrives, a handler gets to the end of its broadcast (the key, the account of the faucet, the signature and the
network may each fail), or a handler whose transfer was broadcast records it. -/
inductive Step where
  | request (address : Bytes)
  | broadcast (k : Nat) (result : Except Bytes TxResponse)
  | record (k : Nat)

def step (s : State) : Step → State
  | .request address =>
    match checkRequest Γ s address with
    | .error _ => s
    | .ok h => { s with inFlight := h :: s.inFlight }
  | .broadcast k result =>
    match s.inFlight[k]? with
    | some ⟨address, account, none⟩ =>
      match result with
      | .error _ => { s with inFlight := s.inFlight.eraseIdx k }
      | .ok res =>
        if res.code = 0 then
          { s with inFlight := s.inFlight.set k ⟨address, account, some res.txHash⟩, transfers := account :: s.transfers }
        else { s with inFlight := s.inFlight.eraseIdx k }
    | _ => s
  | .record k =>
    match s.inFlight[k]? with
    | some ⟨address, _, some txHash⟩ =>
      let s := { s with inFlight := s.inFlight.eraseIdx k }
      -- an error is printed, and the client gets the hash of the transfer all the same
      match recordAddressRequested Γ s address (microOpenDenom, faucetRequestAmount) txHash with
      | .error _ => s
      | .ok s' => s'
    | _ => s

/-- A request spells its account as the SDK does and comes when no other handler is at work for the account; what a handler has
to record can be recorded. -/
def Orderly (s : State) : Step → Prop
  | .request address => Γ.mounted = true ∧ ∀ account, Γ.accAddressFromBech32 address = .ok account →
      Γ.accAddressString account = address ∧ ∀ h ∈ s.inFlight, h.account ≠ account
  | .broadcast _ _ => True
  | .record k => Γ.mounted = true ∧ ∀ h txHash, s.inFlight[k]? = some h → h.txHash = some txHash →
      ∃ bz, Γ.marshal ⟨h.address, (microOpenDenom, faucetRequestAmount), txHash⟩ = .ok bz

/-- Nobody was paid twice. Who was paid is on record or about to be, and no two handlers work for one account. -/
structure Sound (s : State) : Prop where
  once : s.transfers.Nodup
  apart : (s.inFlight.map Handler.account).Nodup
  spelled : ∀ h ∈ s.inFlight, Γ.accAddressString h.account = h.address
  unpaid : ∀ h ∈ s.inFlight, h.txHash = none → h.account ∉ s.transfers
  known : ∀ account ∈ s.transfers, (s.store.get (Γ.accAddressString account)).isSome = true ∨
    ∃ h ∈ s.inFlight, h.account = account ∧ h.txHash.isSome = true

variable {Γ} {s : State} {k : Nat} {h : Handler}

theorem checkRequest_eq_ok {address : Bytes} : checkRequest Γ s address = .ok h ↔
    Γ.accAddressFromBech32 address = .ok h.account ∧ hasAddressRequested Γ s address = false ∧
      h.address = address ∧ h.txHash = none := by
  obtain ⟨x, account, t⟩ := h
  unfold checkRequest
  cases Γ.accAddressFromBech32 address with
  | error e => simp
  | ok a => cases hasAddressRequested Γ s address <;> simp [eq_comm, and_left_comm]

/-- A handler for an account that no other works for and that is not on record. -/
theorem Sound.arrive (hs : Sound Γ s) (hfree : ∀ x ∈ s.inFlight, x.account ≠ h.account)
    (hsp : Γ.accAddressString h.account = h.address)
    (hr : (s.store.get (Γ.accAddressString h.account)).isSome ≠ true) :
    Sound Γ { s with inFlight := h :: s.inFlight } := by
  have hnew : h.account ∉ s.transfers := by
    intro ha
    rcases hs.known h.account ha with hst | ⟨x, hx, heq, -⟩
    · exact hr hst
    · exact hfree x hx heq
  refine ⟨hs.once, nodup_cons.2 ⟨?_, hs.apart⟩, ?_, ?_, fun a ha => ?_⟩
  · rw [mem_map]
    rintro ⟨x, hx, heq⟩
    exact hfree x hx heq
  · simp only [mem_cons, forall_eq_or_imp]
    exact ⟨hsp, hs.spelled⟩
  · simp only [mem_cons, forall_eq_or_imp]
    exact ⟨fun _ => hnew, hs.unpaid⟩
  · exact (hs.known a ha).imp id fun ⟨x, hx, hp⟩ => ⟨x, mem_cons_of_mem _ hx, hp⟩

/-- A handler that goes away without a debt: it had not paid, or its account is on record now. -/
theorem Sound.erase (hs : Sound Γ s) (hk : s.inFlight[k]? = some h) {store : KVStore Bytes Bytes}
    (hm : ∀ x, (s.store.get x).isSome = true → (store.get x).isSome = true)
    (hd : h.txHash.isSome = true → (store.get (Γ.accAddressString h.account)).isSome = true) :
    Sound Γ { s with inFlight := s.inFlight.eraseIdx k, store := store } := by
  have hsub : ∀ x ∈ s.inFlight.eraseIdx k, x ∈ s.inFlight := fun x hx => (eraseIdx_sublist _ _).subset hx
  refine ⟨hs.once, hs.apart.sublist ((eraseIdx_sublist _ _).map _), fun x hx => hs.spelled x (hsub x hx),
    fun x hx => hs.unpaid x (hsub x hx), fun account ha => ?_⟩
  rcases hs.known account ha with hst | ⟨x, hx, rfl, hp⟩
  · exact .inl (hm _ hst)
  · by_cases heq : x = h
    · subst heq
      exact .inl (hd hp)
    · obtain ⟨j, hj⟩ := mem_iff_getElem?.1 hx
      refine .inr ⟨x, mem_eraseIdx_iff_getElem?.2 ⟨j, ?_, hj⟩, rfl, hp⟩
      rintro rfl
      exact heq (Option.some.inj (hj.symm.trans hk))

theorem Sound.pay (hs : Sound Γ s) {address account txHash : Bytes} (hk : s.inFlight[k]? = some ⟨address, account, none⟩) :
    Sound Γ { s with
      inFlight := s.inFlight.set k ⟨address, account, some txHash⟩
      transfers := account :: s.transfers } := by
  have hh := mem_of_getElem? hk
  have hlt := (List.getElem?_eq_some_iff.1 hk).1
  have hmap : (s.inFlight.set k ⟨address, account, some txHash⟩).map Handler.account = s.inFlight.map Handler.account := by
    refine ext_getElem? fun j => ?_
    simp only [getElem?_map, getElem?_set]
    split
    · subst k
      rw [hk]
      rfl
    · rfl
  have hset : ∀ {x}, x ∈ s.inFlight.set k ⟨address, account, some txHash⟩ → x = ⟨address, account, some txHash⟩ ∨
      x ∈ s.inFlight ∧ x.account ≠ account := by
    intro x hx
    obtain ⟨j, hj⟩ := mem_iff_getElem?.1 hx
    rw [getElem?_set] at hj
    split at hj
    · exact .inl (Option.some.inj hj).symm
    · rename_i hne
      refine .inr ⟨mem_of_getElem? hj, fun heq => hne ?_⟩
      refine (getElem?_inj (by simpa using hlt) hs.apart).1 ?_
      rw [getElem?_map, getElem?_map, hk, hj, Option.map_some, Option.map_some, heq]
  refine ⟨nodup_cons.2 ⟨hs.unpaid _ hh rfl, hs.once⟩, hmap ▸ hs.apart, ?_, ?_, ?_⟩
  · intro x hx
    rcases hset hx with rfl | ⟨hx, -⟩
    · exact hs.spelled ⟨address, account, none⟩ hh
    · exact hs.spelled x hx
  · intro x hx hn
    rcases hset hx with rfl | ⟨hx, hne⟩
    · cases hn
    · rw [mem_cons]
      rintro (heq | hm)
      · exact hne heq
      · exact hs.unpaid x hx hn hm
  · intro account' ha
    rcases mem_cons.1 ha with rfl | ha
    · exact .inr ⟨_, mem_set hlt _, rfl, rfl⟩
    · rcases hs.known account' ha with hst | ⟨x, hx, rfl, hp⟩
      · exact .inl hst
      · obtain ⟨j, hj⟩ := mem_iff_getElem?.1 hx
        refine .inr ⟨x, mem_iff_getElem?.2 ⟨j, ?_⟩, rfl, hp⟩
        rw [getElem?_set_ne, hj]
        rintro rfl
        obtain rfl := Option.some.inj (hk.symm.trans hj)
        cases hp

theorem sound_step (s : State) (a : Step) (hs : Sound Γ s) (ho : Orderly Γ s a) : Sound Γ (step Γ s a) := by
  cases a with
  | request address =>
    unfold step
    dsimp only
    split
    · exact hs
    · rename_i h hc
      obtain ⟨hd, hr, hn⟩ := checkRequest_eq_ok.1 hc
      obtain ⟨hsp, hfree⟩ := ho.2 h.account hd
      refine hs.arrive hfree (hsp.trans hn.1.symm) fun hst => ?_
      simp [hasAddressRequested, ho.1, ← hsp, hst] at hr
  | broadcast k result =>
    unfold step
    dsimp only
    split
    · rename_i address account hk
      have hgone : Sound Γ { s with inFlight := s.inFlight.eraseIdx k } := hs.erase hk (fun _ h => h) (by simp)
      split
      · exact hgone
      · split
        · exact hs.pay hk
        · exact hgone
    · exact hs
  | record k =>
    obtain ⟨hm, ho⟩ := ho
    unfold step
    dsimp only
    split
    · rename_i address account txHash hk
      obtain ⟨bz, hbz⟩ := ho _ _ hk rfl
      have hsp := hs.spelled _ (mem_of_getElem? hk)
      simp only [recordAddressRequested, hm, if_true, hbz]
      refine hs.erase hk (fun x hx => ?_) fun _ => ?_
      · rw [get_set]
        split
        · rfl
        · exact hx
      · rw [hsp, get_set, if_pos rfl]
        rfl
    · exact hs

/-- In every run of orderly steps, from any store, no account is paid twice. -/
theorem faucet_pays_once (store : KVStore Bytes Bytes) (steps : List Step)
    (ho : Run.AllSteps (step Γ) (Orderly Γ) ⟨store, [], []⟩ steps) :
    (Run.run (step Γ) ⟨store, [], []⟩ steps).transfers.Nodup :=
  (Run.run_induction (step Γ) sound_step ho ⟨nodup_nil, nodup_nil, by simp, by simp, by simp⟩).once

/-- Addresses are read in small letters or in capitals and written in small letters. -/
def letters : FaucetEnv where
  accAddressFromBech32 address := if address = str "VERA1Q" then .ok (str "vera1q") else .ok address
  accAddressString account := account
  mounted := true
  marshal r := .ok r.txHash

/-- Two accounts ask one after another, and the first one asks again. -/
theorem faucet_pays_once_in_turn :
    (Run.run (step letters) ⟨.empty, [], []⟩ [.request (str "vera1q"), .broadcast 0 (.ok ⟨0, []⟩), .record 0,
      .request (str "vera1p"), .broadcast 0 (.ok ⟨0, []⟩), .record 0, .request (str "vera1q")]).transfers.Nodup := by
  have hsp : ∀ x ∈ [str "vera1q", str "vera1p"], ∀ account, letters.accAddressFromBech32 x = .ok account → account = x := by
    intro x hx account h
    have hne : x ≠ str "VERA1Q" := by
      rintro rfl
      exact absurd hx (by decide)
    simpa [letters, hne, eq_comm] using h
  refine faucet_pays_once .empty _ ⟨⟨rfl, ?_⟩, trivial, ⟨rfl, fun _ _ _ _ => ⟨_, rfl⟩⟩, ⟨rfl, ?_⟩, trivial,
    ⟨rfl, fun _ _ _ _ => ⟨_, rfl⟩⟩, ⟨rfl, ?_⟩, trivial⟩
  all_goals
    intro account h
    exact ⟨hsp _ (by decide) account h, fun x hx => nomatch hx⟩

/-- An account is paid once for each spelling of its address, and twice if two handlers look it up before one of them records. -/
theorem faucet_pays_once_false :
    (¬(Run.run (step letters) ⟨.empty, [], []⟩ [.request (str "vera1q"), .broadcast 0 (.ok ⟨0, []⟩), .record 0,
        .request (str "VERA1Q"), .broadcast 0 (.ok ⟨0, []⟩), .record 0]).transfers.Nodup) ∧
      ¬(Run.run (step letters) ⟨.empty, [], []⟩ [.request (str "vera1q"), .request (str "vera1q"),
        .broadcast 0 (.ok ⟨0, []⟩), .broadcast 1 (.ok ⟨0, []⟩), .record 0, .record 0]).transfers.Nodup := by
  decide +kernel

end Vera.App.Faucet
