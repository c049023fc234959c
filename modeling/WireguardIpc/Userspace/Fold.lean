/-
The reading of a reply the specification gives, and that `userspace_get_device` follows it.

The specification reads the lines before the blank line with a state of two parts, the
device and the current peer.  A `public_key` line appends a new peer at the end of the
peers and makes it current; a peer-scoped line updates only the current peer, and an
`allowed_ip` line appends one record at the end of its allowed-ips; the device-scoped
lines update the device only while there is no peer; every other line leaves the device
as it is.  There are no pointers in this reading: the finished peers are a list, and the
current peer is kept apart from them.

`userspaceGetDevice_fold` proves that whenever `userspace_get_device` returns `0`, the
device it returns is the one this reading gives of the lines before the blank line.  The
two are linked by `Reads`: the code's chain of peers is the finished peers followed by
the current one, its `peer` cursor is on the last of them, and its `allowedip` cursor on
the last allowed-ip of the current peer.  Each line keeps the link (`getLine_reads`), and
the loop keeps it by induction over the lines (`getLoop_reads`).
-/
import WireguardIpc.Userspace.Get

namespace WireguardIpc

/-! ### The specification's reading -/

/-- The device read so far, with the current peer kept apart. -/
structure RefState where
  /-- The device with the peers finished so far. -/
  device : Wgdevice
  /-- The peer the peer-scoped lines update. -/
  current : Option Wgpeer

/-- The device a reading stands for: its finished peers, then the current one. -/
def RefState.result (s : RefState) : Wgdevice :=
  { s.device with peers := s.device.peers ++ s.current.toList }

/-- The specification's step on a `key=value` line, `none` for a value the code rejects.
The stores are the code's own (`storeInDevice`, `storeInPeer`, `resolveEndpoint`,
`allowedipRecord`); what differs is where they go. -/
def refLine (ext : Extern) (s : RefState) (key value : List UInt8) : Option RefState :=
  match GetKey.ofBytes key, s.current with
  | .privateKey, none | .listenPort, none | .fwmark, none =>
    (storeInDevice ext (GetKey.ofBytes key) value).map fun f => { s with device := f s.device }
  | .publicKey, _ => (ext.keyFromHex value).map fun k => ⟨s.result, some (Wgpeer.zero.withPublicKey k)⟩
  | .endpoint, some p =>
    match resolveEndpoint ext value with
    | .addr b => some { s with current := some { p with endpoint := p.endpoint.copyIn b } }
    | _ => none
  | .allowedIp, some p =>
    ((allowedipText value).bind fun t => allowedipRecord ext t.1 t.2).map fun a =>
      { s with current := some { p with allowedips := p.allowedips ++ [a] } }
  | .presharedKey, some p | .persistentKeepaliveInterval, some p | .lastHandshakeTimeSec, some p
  | .lastHandshakeTimeNsec, some p | .rxBytes, some p | .txBytes, some p =>
    (storeInPeer ext (GetKey.ofBytes key) value).map fun f => { s with current := some (f p) }
  | _, _ => some s

/-- The specification's reading of the `key=value` lines before the blank line. -/
def refFold (ext : Extern) (s : RefState) (pairs : List (List UInt8 × List UInt8)) : Option RefState :=
  pairs.foldlM (fun s kv => refLine ext s kv.1 kv.2) s

/-! ### The link between the two -/

/-- The code's state `st` stands for the reading `s`. -/
structure Reads (st : GetState) (s : RefState) : Prop where
  device : st.device = s.result
  /-- `peer` is on the last peer of the chain. -/
  peer : st.peer = lastIndex st.device.peers
  /-- Before the first peer there are no finished peers. -/
  first : s.current = none → s.device.peers = []
  /-- `allowedip` is on the last allowed-ip of the current peer. -/
  allowedip : st.allowedip = s.current.bind fun p => lastIndex p.allowedips

theorem Reads.peer_none {st : GetState} {s : RefState} (h : Reads st s) (hc : s.current = none) :
    st.peer = none := by
  rw [h.peer, h.device, RefState.result, hc, h.first hc]; rfl

theorem Reads.peer_some {st : GetState} {s : RefState} (h : Reads st s) {p : Wgpeer}
    (hc : s.current = some p) : st.peer = some s.device.peers.length := by
  rw [h.peer, h.device, RefState.result, hc, Option.toList_some, lastIndex_concat]

theorem result_of_none {s : RefState} (hc : s.current = none) : s.result = s.device := by
  rw [RefState.result, hc, Option.toList_none, List.append_nil]

/-- A store into the device while there is no peer. -/
theorem Reads.storeDevice {st : GetState} {s : RefState} (h : Reads st s) (hc : s.current = none)
    (f : Wgdevice → Wgdevice) (hf : (f s.device).peers = s.device.peers) :
    Reads { st with device := f st.device } { s with device := f s.device } where
  device := by
    rw [h.device, result_of_none hc,
      result_of_none (show ({ s with device := f s.device } : RefState).current = none from hc)]
  peer := by
    show st.peer = lastIndex (f st.device).peers
    rw [h.peer_none hc, h.device, result_of_none hc, hf, h.first hc, lastIndex_nil]
  first := fun _ => hf.trans (h.first hc)
  allowedip := by rw [h.allowedip, hc]

/-- A store into the current peer through the `peer` cursor, with the `allowedip` cursor
put on the last allowed-ip the peer then has. -/
theorem Reads.modifyCurrent {st : GetState} {s : RefState} (h : Reads st s) {p : Wgpeer}
    (hc : s.current = some p) (f : Wgpeer → Wgpeer) (c : Option Nat)
    (hcur : c = lastIndex (f p).allowedips) (sys : Sys) :
    Reads { st.modifyPeer s.device.peers.length f with allowedip := c, sys := sys }
      { s with current := some (f p) } where
  device := by
    simp only [GetState.modifyPeer, h.device, RefState.result, hc, Option.toList_some, modify_concat]
  peer := by
    simp only [GetState.modifyPeer, h.peer_some hc, h.device, RefState.result, hc, Option.toList_some,
      modify_concat, lastIndex_concat]
  first := fun h' => by cases h'
  allowedip := hcur

/-- A store into the current peer that leaves its allowed-ips alone. -/
theorem Reads.storePeer {st : GetState} {s : RefState} (h : Reads st s) {p : Wgpeer}
    (hc : s.current = some p) (f : Wgpeer → Wgpeer) (hf : (f p).allowedips = p.allowedips) :
    Reads (st.modifyPeer s.device.peers.length f) { s with current := some (f p) } :=
  h.modifyCurrent hc f st.allowedip (by rw [h.allowedip, hc, hf]; rfl) st.sys

/-- An allowed-ip linked after the `allowedip` cursor of the current peer. -/
theorem Reads.appendAllowedip {st : GetState} {s : RefState} (h : Reads st s) {p : Wgpeer}
    (hc : s.current = some p) (a : Wgallowedip) (sys : Sys) :
    Reads { st.modifyPeer s.device.peers.length
        (fun q => { q with allowedips := linkAfter q.allowedips st.allowedip a }) with
        allowedip := some (afterIndex st.allowedip), sys := sys }
      { s with current := some { p with allowedips := p.allowedips ++ [a] } } := by
  have hl : st.allowedip = lastIndex p.allowedips := by rw [h.allowedip, hc]; rfl
  have h' := h.modifyCurrent hc (fun q => { q with allowedips := linkAfter q.allowedips st.allowedip a })
    (some (afterIndex st.allowedip)) (by simp [hl, linkAfter_lastIndex, afterIndex_lastIndex, lastIndex_concat]) sys
  simpa only [hl, linkAfter_lastIndex] using h'

/-- `ret` is not part of the link. -/
theorem Reads.setRet {st : GetState} {s : RefState} (h : Reads st s) (r : Int) :
    Reads { st with ret := r } s :=
  ⟨h.device, h.peer, h.first, h.allowedip⟩

/-- A `public_key` line: a zeroed peer linked after `peer`, then its key stored through it. -/
theorem Reads.newPeer {st : GetState} {s : RefState} (h : Reads st s) (k : Key) (sys : Sys) :
    Reads (GetState.modifyPeer
        { st with device := { st.device with peers := linkAfter st.device.peers st.peer Wgpeer.zero },
                  peer := some (afterIndex st.peer), allowedip := none, sys := sys }
        (afterIndex st.peer) (Wgpeer.withPublicKey k))
      ⟨s.result, some (Wgpeer.zero.withPublicKey k)⟩ where
  device := by
    simp only [GetState.modifyPeer, h.peer, linkAfter_lastIndex, afterIndex_lastIndex, modify_concat,
      h.device, RefState.result, Option.toList_some]
  peer := by
    simp only [GetState.modifyPeer, h.peer, linkAfter_lastIndex, afterIndex_lastIndex, modify_concat,
      lastIndex_concat]
  first := fun h' => by cases h'
  allowedip := rfl

/-- The stores of one line leave the chains alone: a device store keeps the peers, a peer
store the allowed-ips. -/
theorem stores_keep_chains (ext : Extern) (k : GetKey) (value : List UInt8) :
    (∀ f, storeInDevice ext k value = some f → ∀ d, (f d).peers = d.peers) ∧
    (∀ f, storeInPeer ext k value = some f → ∀ p, (f p).allowedips = p.allowedips) := by
  cases k <;> refine ⟨fun f h _ => ?_, fun f h _ => ?_⟩ <;>
    simp only [storeInDevice, storeInPeer, Option.some.injEq] at h <;>
    first
    | (subst h; rfl)
    | (obtain ⟨_, -, rfl⟩ := Option.map_eq_some'.1 h; rfl)

/-! ### Line by line -/

/-- The code's line and the specification's step agree from states that stand for each
other: a line the code gets past is one the step reads; and, with every allocation
succeeding, a line other than `errno` that the step reads, the code gets past with `ret`
as it was. -/
def LineAgrees (ext : Extern) (st : GetState) (s : RefState) (key value : List UInt8) : Prop :=
  (∀ st', getLine ext st key value = .next st' →
    ∃ s', refLine ext s key value = some s' ∧ Reads st' s') ∧
  (st.sys.allocs = [] → GetKey.ofBytes key ≠ .errno → ∀ s', refLine ext s key value = some s' →
    ∃ st', getLine ext st key value = .next st' ∧ Reads st' s' ∧ st'.ret = st.ret ∧
      st'.sys.allocs = [])

/-- **One line keeps the link, both ways**, key by key: each store the code makes is the
step's, through the cursor `Reads` puts on the current peer. -/
theorem Reads.lineAgrees {ext : Extern} {st : GetState} {s : RefState} (h : Reads st s)
    (key value : List UInt8) : LineAgrees ext st s key value := by
  obtain ⟨d, pe, al, r, sy⟩ := st
  obtain ⟨sd, sc⟩ := s
  unfold LineAgrees getLine refLine
  -- the code's `peer` cursor is `NULL` exactly when the reading has no current peer
  rcases sc with _ | p
  on_goal 1 => obtain rfl : pe = none := h.peer_none rfl
  on_goal 2 => obtain rfl : pe = some sd.peers.length := h.peer_some rfl
  all_goals
    cases hk : GetKey.ofBytes key <;> simp only [hk] <;>
      refine ⟨fun st' hnext => ?_, fun hsys herr s' href => ?_⟩
  all_goals first
    | exact absurd rfl herr
    | (cases hnext; exact ⟨_, rfl, h⟩)
    | (cases href; exact ⟨_, rfl, h, rfl, hsys⟩)
    | (obtain ⟨_, -, rfl⟩ := ofStore_eq_next hnext; exact ⟨_, rfl, h.setRet _⟩)
    | (obtain ⟨f, hf, rfl⟩ := ofStore_eq_next hnext
       first
       | exact ⟨_, by rw [hf]; rfl, h.storeDevice rfl f ((stores_keep_chains ..).1 f hf _)⟩
       | exact ⟨_, by rw [hf]; rfl, h.storePeer rfl f ((stores_keep_chains ..).2 f hf _)⟩)
    | (obtain ⟨f, hf, rfl⟩ := Option.map_eq_some'.1 href
       first
       | exact ⟨_, by rw [hf]; rfl, h.storeDevice rfl f ((stores_keep_chains ..).1 f hf _), rfl,
           hsys⟩
       | exact ⟨_, by rw [hf]; rfl, h.storePeer rfl f ((stores_keep_chains ..).2 f hf _), rfl,
           hsys⟩)
    | (obtain ⟨sys, h1⟩ := calloc_eq_next hnext
       obtain ⟨k, hk', rfl⟩ := ofStore_eq_next h1
       exact ⟨_, by rw [hk']; rfl, h.newPeer k sys⟩)
    | (obtain ⟨k, hk', rfl⟩ := Option.map_eq_some'.1 href
       exact ⟨_, by rw [calloc_of_allocs_nil hsys, hk']; rfl, h.newPeer k sy, rfl, hsys⟩)
    | (rcases hr : resolveEndpoint ext value with b | _ | _ <;> simp only [hr] at hnext ⊢ <;>
         cases hnext
       exact ⟨_, rfl, h.storePeer rfl _ rfl⟩)
    | (rcases hr : resolveEndpoint ext value with b | _ | _ <;> simp only [hr] at href ⊢ <;>
         cases href
       exact ⟨_, rfl, h.storePeer rfl _ rfl, rfl, hsys⟩)
    | (rcases ht : allowedipText value with _ | ⟨ip, mask⟩ <;>
         simp only [ht, Option.none_bind, Option.some_bind] at hnext ⊢
       · cases hnext
       obtain ⟨sys, h1⟩ := calloc_eq_next hnext
       obtain ⟨a, ha, rfl⟩ := ofStore_eq_next h1
       exact ⟨_, by rw [ha]; rfl, h.appendAllowedip rfl a sys⟩)
    | (obtain ⟨a, ha, rfl⟩ := Option.map_eq_some'.1 href
       rcases ht : allowedipText value with _ | ⟨ip, mask⟩ <;>
         simp only [ht, Option.none_bind, Option.some_bind] at ha ⊢
       · cases ha
       exact ⟨_, by rw [calloc_of_allocs_nil hsys, ha]; rfl, h.appendAllowedip rfl a sy, rfl, hsys⟩)

/-- **One line keeps the link**: a line the code gets past is one the specification's
step reads, and the two states still stand for each other. -/
theorem getLine_reads {ext : Extern} {st st' : GetState} {s : RefState} {key value : List UInt8}
    (h : Reads st s) (hnext : getLine ext st key value = .next st') :
    ∃ s', refLine ext s key value = some s' ∧ Reads st' s' :=
  (h.lineAgrees key value).1 st' hnext

/-- **The loop keeps the link**: a run that ends with `ret == 0` stopped at a blank line,
every line before it was a `key=value` line, and the specification's reading of those
lines stands for the state the code stopped in. -/
theorem getLoop_reads (ext : Extern) : ∀ (lines : List (List UInt8)) (st : GetState) (s : RefState),
    Reads st s → (getLoop ext lines st).1 = 0 →
    ∃ pairs rest, lines.map parseLine = pairs.map (fun kv => Line.pair kv.1 kv.2) ++ .blank :: rest ∧
      ∃ s', refFold ext s pairs = some s' ∧ Reads (getLoop ext lines st).2 s'
  | [], _, _, _, h0 => by simp [getLoop, EPROTO] at h0
  | line :: lines, st, s, h, h0 => by
    unfold getLoop at h0 ⊢
    rcases hl : parseLine line with _ | ⟨key, value⟩ | _ <;> simp only [hl] at h0 ⊢
    · exact ⟨[], lines.map parseLine, by simp [hl], s, rfl, h⟩
    · rcases hg : getLine ext st key value with st' | _ | r <;> simp only [hg] at h0 ⊢
      · obtain ⟨s', hs', h'⟩ := getLine_reads h hg
        obtain ⟨pairs, rest, hlines, s'', hfold, h''⟩ := getLoop_reads ext lines st' s' h' h0
        refine ⟨(key, value) :: pairs, rest, by simp [hl, hlines], s'', ?_, h''⟩
        rw [refFold, List.foldlM_cons, hs']
        exact hfold
      · simp [EPROTO] at h0
      · rcases getLine_exit hg with rfl | rfl <;> simp [ENOMEM, ENETUNREACH] at h0
    · simp [EPROTO] at h0

/-- **`userspace_get_device` reads a reply as the specification does.**  Whenever it returns
`0`, the lines of the reply up to the first blank line are all `key=value` lines, and the
device returned is the one the specification's fold of them gives, starting from the
zeroed device named `iface` with no current peer. -/
theorem userspaceGetDevice_fold (ext : Extern) (sys : Sys) (openErrno : Option Nat)
    (iface reply : List UInt8) {d : Wgdevice}
    (h : userspaceGetDevice ext sys openErrno iface reply = (0, some d)) :
    ∃ pairs rest, (getlines reply).map parseLine =
        pairs.map (fun kv => Line.pair kv.1 kv.2) ++ .blank :: rest ∧
      (refFold ext ⟨{ Wgdevice.zero with name := IfName.ofCString iface }, none⟩ pairs).map
        RefState.result = some d := by
  unfold userspaceGetDevice at h
  rcases hc : sys.calloc with ⟨_ | _, sys'⟩ <;>
    simp only [hc, Bool.not_true, Bool.not_false, Bool.false_eq_true, ↓reduceIte] at h
  · simp at h
  · rcases openErrno with _ | e
    · dsimp only at h
      split_ifs at h with h0
      · simp at h
      obtain rfl := Option.some.inj (Prod.mk.inj h).2
      obtain ⟨pairs, rest, hl, s', hf, hr⟩ := getLoop_reads ext _ _
        ⟨{ Wgdevice.zero with name := IfName.ofCString iface }, none⟩ ⟨rfl, rfl, fun _ => rfl, rfl⟩
        (not_not.1 h0)
      exact ⟨pairs, rest, hl, by rw [hf, Option.map_some', ← hr.device]⟩
    · simp at h

/-- External functions under which a key text decodes to the key whose first byte is the
text's first, and `inet_pton` reads every text as `10.0.0.0`. -/
def keyPtonExtern : Extern :=
  { ptonOnlyExtern with keyFromHex := fun t => some (Key.ofByte (t.headD 0)) }

/-- A reply of `wg0` with a private key, a listen port and two peers, the first with a
keepalive interval and two allowed-ips, the second with one. -/
def twoPeerReply : List UInt8 :=
  cstr "private_key=a\nlisten_port=51820\npublic_key=b\npersistent_keepalive_interval=25\n" ++
    cstr "allowed_ip=10.0.0.0/24\nallowed_ip=10.0.0.0/32\npublic_key=c\nallowed_ip=10.0.0.0/16\n" ++
    cstr "errno=0\n\n"

/-- The allowed-ip `10.0.0.0/cidr`. -/
def tenNet (cidr : UInt8) : Wgallowedip := ⟨2, ⟨[10, 0, 0, 0] ++ List.replicate 12 0, by simp⟩, cidr⟩

/-- The device `twoPeerReply` gives under `keyPtonExtern`. -/
def twoPeerReplyDevice : Wgdevice :=
  { Wgdevice.zero with
    name := IfName.ofCString (cstr "wg0")
    flags := { hasPrivateKey := true, hasPublicKey := true, hasListenPort := true }
    publicKey := Key.ofByte 97
    privateKey := Key.ofByte 97
    listenPort := 51820
    peers := [
      { Wgpeer.zero with
        flags := { hasPublicKey := true, hasPersistentKeepaliveInterval := true }
        publicKey := Key.ofByte 98
        persistentKeepaliveInterval := 25
        allowedips := [tenNet 24, tenNet 32] },
      { Wgpeer.zero with
        flags := { hasPublicKey := true }
        publicKey := Key.ofByte 99
        allowedips := [tenNet 16] }] }

theorem userspaceGetDevice_fold_twoPeers :
    userspaceGetDevice keyPtonExtern ⟨[], 0⟩ none (cstr "wg0") twoPeerReply =
        (0, some twoPeerReplyDevice) ∧
      ∃ pairs rest, (getlines twoPeerReply).map parseLine =
          pairs.map (fun kv => Line.pair kv.1 kv.2) ++ .blank :: rest ∧
        (refFold keyPtonExtern ⟨{ Wgdevice.zero with name := IfName.ofCString (cstr "wg0") }, none⟩
          pairs).map RefState.result = some twoPeerReplyDevice :=
  have h : userspaceGetDevice keyPtonExtern ⟨[], 0⟩ none (cstr "wg0") twoPeerReply =
      (0, some twoPeerReplyDevice) := by decide
  ⟨h, userspaceGetDevice_fold _ _ _ _ _ h⟩

end WireguardIpc
