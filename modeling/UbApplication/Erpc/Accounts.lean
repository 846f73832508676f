import UbApplication.Erpc.Management

/-!
# Ring entries and peers of the sessions

Every live session of an Rpc object holds its credits in the receive ring and one reference of the
peer at its other end.
-/

namespace UbApplication.Erpc.Sm.Rpc

open List

/-- A session in a slot is one with a peer. -/
def withPeer (peer : Nat) (slot : Option Session) : Bool :=
  slot.any fun session => session.remoteRpcId = peer

variable (build : Build) (rpc : Rpc)

def live : Nat := rpc.sessionVec.countP Option.isSome

def liveWith (peer : Nat) : Nat := rpc.sessionVec.countP (withPeer peer)

/-- The ring entries and the peers are those of the live sessions; the credits of some sessions have
already been given back. -/
structure Accounts (refunds : Nat) : Prop where
  ring : rpc.ringEntriesAvailable + sessionCredits * rpc.live =
    build.numRxRingEntries + sessionCredits * refunds
  peers : build.ub = true → ∀ peer, rpc.rxPeerRefcounts peer = rpc.liveWith peer

variable {build rpc} {next : Rpc} {refunds number : Nat} {session old : Session}

/-- Counting after one slot of the vector is replaced. -/
theorem countP_set {vec : List (Option Session)} (slot : Option Session)
    (test : Option Session → Bool) (found : vec[number]?.join = some old) :
    (vec.set number slot).countP test + (test (some old)).toNat =
      vec.countP test + (test slot).toNat := by
  induction vec generalizing number with
  | nil => contradiction
  | cons first rest ih =>
    cases number with
    | zero =>
      have here : first = some old := by simpa using found
      rw [here, set_cons_zero, countP_cons, countP_cons]
      cases test (some old) <;> cases test slot <;> simp
    | succ number =>
      have there : rest[number]?.join = some old := by simpa using found
      rw [set_cons_succ, countP_cons, countP_cons]
      have counted := ih there
      omega

namespace Accounts

/-- A refund is on the books. -/
theorem refunded (accounts : rpc.Accounts build refunds) :
    rpc.refunded.Accounts build (refunds + 1) := by
  constructor
  · have ring := accounts.ring
    simp only [Rpc.refunded, live, sessionCredits] at ring ⊢
    omega
  · exact accounts.peers

/-- With a session there is room for its refund. -/
theorem room (accounts : rpc.Accounts build 0) (found : rpc.session? number = some session) :
    rpc.ringEntriesAvailable + sessionCredits ≤ build.numRxRingEntries := by
  have ring := accounts.ring
  have member : some session ∈ rpc.sessionVec := by
    rw [session?, Option.join_eq_some_iff] at found
    exact mem_of_getElem? found
  have alive : 0 < rpc.live := countP_pos_iff.mpr ⟨some session, member, rfl⟩
  simp only [sessionCredits] at ring ⊢
  omega

/-- A new session takes its credits and a reference. -/
theorem push (accounts : rpc.Accounts build refunds)
    (sessions : next.sessionVec = rpc.sessionVec ++ [some session])
    (enough : sessionCredits ≤ rpc.ringEntriesAvailable)
    (ring : next.ringEntriesAvailable = rpc.ringEntriesAvailable - sessionCredits)
    (gains : PeerGains build session.remoteRpcId rpc.rxPeerRefcounts next.rxPeerRefcounts) :
    next.Accounts build refunds := by
  constructor
  · have before := accounts.ring
    have more : next.live = rpc.live + 1 := by simp [live, sessions]
    rw [more, ring]
    simp only [sessionCredits] at before enough ⊢
    omega
  · intro ub peer
    have before := accounts.peers ub
    rw [liveWith, sessions, countP_append, gains ub]
    by_cases same : peer = session.remoteRpcId
    · subst same
      rw [Function.update_self, before]
      simp [withPeer, liveWith]
    · rw [Function.update_of_ne same, before]
      simp [withPeer, Ne.symm same, liveWith]

/-- A session that stays with its peer changes no account. -/
theorem set (accounts : rpc.Accounts build refunds) (found : rpc.session? number = some old)
    (sessions : next.sessionVec = rpc.sessionVec.set number (some session))
    (same : session.remoteRpcId = old.remoteRpcId)
    (ring : next.ringEntriesAvailable = rpc.ringEntriesAvailable)
    (peers : next.rxPeerRefcounts = rpc.rxPeerRefcounts) : next.Accounts build refunds := by
  have count (test : Option Session → Bool) (equal : test (some session) = test (some old)) :
      next.sessionVec.countP test = rpc.sessionVec.countP test := by
    have here := countP_set (some session) test found
    rw [sessions]
    rw [equal] at here
    omega
  constructor
  · rw [live, count _ rfl, ring]
    exact accounts.ring
  · intro ub peer
    have equal : withPeer peer (some session) = withPeer peer (some old) := by
      simp [withPeer, same]
    rw [liveWith, count _ equal, peers]
    exact accounts.peers ub peer

/-- A buried session gives back its refund and its reference. -/
theorem bury (accounts : rpc.Accounts build (refunds + 1)) (found : rpc.session? number = some old)
    (sessions : next.sessionVec = rpc.sessionVec.set number none)
    (ring : next.ringEntriesAvailable = rpc.ringEntriesAvailable)
    (loses : PeerLoses build old.remoteRpcId rpc.rxPeerRefcounts next.rxPeerRefcounts) :
    next.Accounts build refunds := by
  constructor
  · have before := accounts.ring
    have here := countP_set none Option.isSome found
    have less : next.live + 1 = rpc.live := by
      rw [live, sessions]
      exact here
    rw [ring]
    simp only [sessionCredits] at before ⊢
    omega
  · intro ub peer
    have before := accounts.peers ub
    have here := countP_set none (withPeer peer) found
    rw [← sessions] at here
    rw [(loses ub).2]
    by_cases same : peer = old.remoteRpcId
    · subst same
      rw [Function.update_self, before]
      simp only [withPeer, Option.any_some, decide_true, Bool.toNat_true, Option.any_none,
        Bool.toNat_false] at here
      simp only [liveWith]
      omega
    · rw [Function.update_of_ne same, before]
      simp only [withPeer, Option.any_some, Ne.symm same, decide_false, Option.any_none,
        Bool.toNat_false] at here
      simp only [liveWith]
      omega

end Accounts

end UbApplication.Erpc.Sm.Rpc
