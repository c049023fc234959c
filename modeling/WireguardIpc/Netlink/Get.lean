/-
The netlink GET decoder.

`kernel_get_device` sends one dump request and folds every reply message into a single
`calloc`ed device: `read_device_cb` hands the message's attributes to `parse_device`,
whose `WGDEVICE_A_PEERS` nest is walked by `parse_peers`, which allocates a peer, links it
through `last_peer` and fills it with `parse_peer`; a peer's `WGPEER_A_ALLOWEDIPS` nest is
walked by `parse_allowedips` in the same way, one `parse_allowedip` per field.  After the
dump, `coalesce_peers` merges the peers the kernel split.

The error discipline is the callback protocol of `mnl_attr_parse`: a result `≤
MNL_CB_STOP` ends the walk and is returned.  `parse_peers` and `parse_allowedips` pass on
the nested walk's result only when it is `MNL_CB_STOP` (`if (!ret)`), and an
`MNL_CB_ERROR` from a nested walk is then replaced by their own verdict.  For
`parse_peers` that verdict looks only at the public key, so an allowed-ip that
`parse_allowedips` rejected stays in a peer whose key was seen, and the GET succeeds
with it (`kernelGetDevice_keeps_invalid_allowedip`).  What the verdict does check holds:
every peer of a successful GET has its public key (`kernelGetDevice_hasPublicKey`), and
the GET returns `0` with a device or a negative error without one, `-EINTR` only from a
socket that could not be opened (`kernelGetDevice_result`).

A field whose `mnl_attr_validate` fails is not stored, and leaves `errno = ERANGE` behind,
as libmnl sets it.  Every receive ends, since every `last` pointer the decoder follows is
on its chain's last node (`recvRun_total`), so the GET gives no result only where
`coalesce_peers` dereferences `NULL` or every attempt it is given is interrupted
(`kernelGetDevice_eq_none`).
-/
import WireguardIpc.Netlink.Coalesce

namespace WireguardIpc

/-! ### Linking through a `last` pointer -/

/-- `if (!first) first = last = new; else { last->next = new; last = new; }` on a chain
and its `last` pointer; `none` when `last` is `NULL` on a non-empty chain. -/
def linkLast {α : Type} (chain : List α) (last : Option Nat) (new : α) :
    Option (List α × Option Nat) :=
  match chain, last with
  | [], _ => some ([new], some 0)
  | _ :: _, none => none
  | c@(_ :: _), some j => some (c.take (j + 1) ++ [new], some (j + 1))

/-- Through a correct `last` pointer, linking appends. -/
theorem linkLast_lastIndex {α : Type} (chain : List α) (new : α) :
    linkLast chain (lastIndex chain) new = some (chain ++ [new], lastIndex (chain ++ [new])) := by
  cases chain with
  | nil => rfl
  | cons a t => simp [linkLast, List.take_of_length_le]

/-- Whatever the pointer, linking keeps only nodes of the chain and the new one. -/
theorem mem_of_linkLast {α : Type} {chain : List α} {last : Option Nat} {new : α}
    {chain' : List α} {last' : Option Nat} (h : linkLast chain last new = some (chain', last'))
    {x : α} (hx : x ∈ chain') : x ∈ chain ∨ x = new := by
  unfold linkLast at h
  split at h <;> simp only [Option.some.injEq, Prod.mk.injEq, reduceCtorEq] at h <;>
    obtain ⟨rfl, rfl⟩ := h
  · simp_all
  · rcases List.mem_append.mp hx with hx | hx
    · exact .inl (List.mem_of_mem_take hx)
    · exact .inr (List.mem_singleton.mp hx)

/-! ### The callbacks -/

/-- The `mnl_attr_validate` that the case of `attr` in `parse_allowedip`'s switch calls, `true`
where the case calls none. -/
def parseAllowedipValidate (attr : Nlattr) : Bool :=
  if attr.type = WGALLOWEDIP_A_FAMILY then attr.validate 2
  else if attr.type = WGALLOWEDIP_A_CIDR_MASK then attr.validate 1
  else true

/-- `parse_allowedip`: the field stored, and `errno` as its validation leaves it. -/
def parseAllowedip (attr : Nlattr) : Wgallowedip × Sys → Option (Int × (Wgallowedip × Sys))
  | (allowedip, sys) => some (MNL_CB_OK,
    if attr.type = WGALLOWEDIP_A_FAMILY then
      if attr.validate 2 then { allowedip with family := UInt16.ofNat (attr.getNum 2) }
      else allowedip
    else if attr.type = WGALLOWEDIP_A_IPADDR then
      if attr.payloadLen = 4 then { allowedip with ip := allowedip.ip.copyIn attr.payload }
      else if attr.payloadLen = 16 then { allowedip with ip := allowedip.ip.copyIn attr.payload }
      else allowedip
    else if attr.type = WGALLOWEDIP_A_CIDR_MASK then
      if attr.validate 1 then { allowedip with cidr := UInt8.ofNat (attr.getNum 1) }
      else allowedip
    else allowedip,
    sys.validated (parseAllowedipValidate attr))

/-- `parse_allowedips`: a new allowed-ip, linked through `last_allowedip`, filled by
`parse_allowedip`, then checked. -/
def parseAllowedips (attr : Nlattr) : Wgpeer × Sys → Option (Int × (Wgpeer × Sys))
  | (peer, sys) =>
    let (ok, sys) := sys.calloc
    if !ok then some (MNL_CB_ERROR, peer, sys)
    else
      match attrParse parseAllowedip attr.nested (Wgallowedip.zero, sys) with
      | none => none
      | some (ret, new, sys) =>
        match linkLast peer.allowedips peer.lastAllowedip new with
        | none => none
        | some (chain, last) =>
          let peer := { peer with allowedips := chain, lastAllowedip := last }
          if ret = 0 then some (ret, peer, sys)
          else if !new.valid then some (MNL_CB_ERROR, peer, sys)
          else some (MNL_CB_OK, peer, sys)

/-- The cases of `parse_peer`'s switch that store a field and `break` to `MNL_CB_OK`. -/
def parsePeerField (attr : Nlattr) (peer : Wgpeer) : Wgpeer :=
  if attr.type = WGPEER_A_PUBLIC_KEY then
    if h : attr.payloadLen = WG_KEY_LEN then
      { peer with publicKey := Bytes.ofList attr.payload h
                  flags := { peer.flags with hasPublicKey := true } }
    else peer
  else if attr.type = WGPEER_A_PRESHARED_KEY then
    if h : attr.payloadLen = WG_KEY_LEN then
      let key : Key := Bytes.ofList attr.payload h
      { peer with presharedKey := key
                  flags := if key.isZero then peer.flags
                           else { peer.flags with hasPresharedKey := true } }
    else peer
  else if attr.type = WGPEER_A_ENDPOINT then
    if attr.payloadLen < SOCKADDR_LEN then peer
    else if attr.getNum 2 = AF_INET ∧ attr.payloadLen = SOCKADDR_IN_LEN then
      { peer with endpoint := peer.endpoint.copyIn attr.payload }
    else if attr.getNum 2 = AF_INET6 ∧ attr.payloadLen = SOCKADDR_IN6_LEN then
      { peer with endpoint := peer.endpoint.copyIn attr.payload }
    else peer
  else if attr.type = WGPEER_A_PERSISTENT_KEEPALIVE_INTERVAL then
    if attr.validate 2 then { peer with persistentKeepaliveInterval := UInt16.ofNat (attr.getNum 2) }
    else peer
  else if attr.type = WGPEER_A_LAST_HANDSHAKE_TIME then
    if attr.payloadLen = 16 then
      { peer with lastHandshakeTime := ⟨UInt64.ofNat (attr.getNum 8),
                                         UInt64.ofNat (ofLeBytes (attr.payload.drop 8))⟩ }
    else peer
  else if attr.type = WGPEER_A_RX_BYTES then
    if attr.validate 8 then { peer with rxBytes := UInt64.ofNat (attr.getNum 8) } else peer
  else if attr.type = WGPEER_A_TX_BYTES then
    if attr.validate 8 then { peer with txBytes := UInt64.ofNat (attr.getNum 8) } else peer
  else peer

@[simp] theorem parsePeerField_allowedips (attr : Nlattr) (peer : Wgpeer) :
    (parsePeerField attr peer).allowedips = peer.allowedips := by
  simp only [parsePeerField, apply_ite Wgpeer.allowedips, apply_dite Wgpeer.allowedips, ite_self,
    dite_eq_ite]

@[simp] theorem parsePeerField_lastAllowedip (attr : Nlattr) (peer : Wgpeer) :
    (parsePeerField attr peer).lastAllowedip = peer.lastAllowedip := by
  simp only [parsePeerField, apply_ite Wgpeer.lastAllowedip, apply_dite Wgpeer.lastAllowedip,
    ite_self, dite_eq_ite]

/-- The `mnl_attr_validate` that the case of `attr` in `parse_peer`'s switch calls, `true` where
the case calls none. -/
def parsePeerValidate (attr : Nlattr) : Bool :=
  if attr.type = WGPEER_A_PERSISTENT_KEEPALIVE_INTERVAL then attr.validate 2
  else if attr.type = WGPEER_A_RX_BYTES then attr.validate 8
  else if attr.type = WGPEER_A_TX_BYTES then attr.validate 8
  else true

/-- `parse_peer`: a `WGPEER_A_ALLOWEDIPS` nest returns the result of its walk, every other
attribute returns `MNL_CB_OK`. -/
def parsePeer (attr : Nlattr) : Wgpeer × Sys → Option (Int × (Wgpeer × Sys))
  | (peer, sys) =>
    if attr.type = WGPEER_A_ALLOWEDIPS then attrParse parseAllowedips attr.nested (peer, sys)
    else some (MNL_CB_OK, parsePeerField attr peer, sys.validated (parsePeerValidate attr))

/-- `parse_peers`: a new peer, linked through `last_peer`, filled by `parse_peer`, then
checked for its public key. -/
def parsePeers (attr : Nlattr) : Wgdevice × Sys → Option (Int × (Wgdevice × Sys))
  | (device, sys) =>
    let (ok, sys) := sys.calloc
    if !ok then some (MNL_CB_ERROR, device, sys)
    else
      match attrParse parsePeer attr.nested (Wgpeer.zero, sys) with
      | none => none
      | some (ret, newPeer, sys) =>
        match linkLast device.peers device.lastPeer newPeer with
        | none => none
        | some (chain, last) =>
          let device := { device with peers := chain, lastPeer := last }
          if ret = 0 then some (ret, device, sys)
          else if !newPeer.flags.hasPublicKey then some (MNL_CB_ERROR, device, sys)
          else some (MNL_CB_OK, device, sys)

/-- The cases of `parse_device`'s switch that store a field and `break` to `MNL_CB_OK`. -/
def parseDeviceField (attr : Nlattr) (device : Wgdevice) : Wgdevice :=
  if attr.type = WGDEVICE_A_IFINDEX then
    if attr.validate 4 then { device with ifindex := UInt32.ofNat (attr.getNum 4) } else device
  else if attr.type = WGDEVICE_A_IFNAME then
    if attr.validateString then { device with name := IfName.ofCString attr.payload } else device
  else if attr.type = WGDEVICE_A_PRIVATE_KEY then
    if h : attr.payloadLen = WG_KEY_LEN then
      { device with privateKey := Bytes.ofList attr.payload h
                    flags := { device.flags with hasPrivateKey := true } }
    else device
  else if attr.type = WGDEVICE_A_PUBLIC_KEY then
    if h : attr.payloadLen = WG_KEY_LEN then
      { device with publicKey := Bytes.ofList attr.payload h
                    flags := { device.flags with hasPublicKey := true } }
    else device
  else if attr.type = WGDEVICE_A_LISTEN_PORT then
    if attr.validate 2 then { device with listenPort := UInt16.ofNat (attr.getNum 2) } else device
  else if attr.type = WGDEVICE_A_FWMARK then
    if attr.validate 4 then { device with fwmark := UInt32.ofNat (attr.getNum 4) } else device
  else device

@[simp] theorem parseDeviceField_peers (attr : Nlattr) (device : Wgdevice) :
    (parseDeviceField attr device).peers = device.peers := by
  simp only [parseDeviceField, apply_ite Wgdevice.peers, apply_dite Wgdevice.peers, ite_self,
    dite_eq_ite]

@[simp] theorem parseDeviceField_lastPeer (attr : Nlattr) (device : Wgdevice) :
    (parseDeviceField attr device).lastPeer = device.lastPeer := by
  simp only [parseDeviceField, apply_ite Wgdevice.lastPeer, apply_dite Wgdevice.lastPeer,
    ite_self, dite_eq_ite]

/-- The `mnl_attr_validate` that the case of `attr` in `parse_device`'s switch calls, `true`
where the case calls none. -/
def parseDeviceValidate (attr : Nlattr) : Bool :=
  if attr.type = WGDEVICE_A_IFINDEX then attr.validate 4
  else if attr.type = WGDEVICE_A_IFNAME then attr.validateString
  else if attr.type = WGDEVICE_A_LISTEN_PORT then attr.validate 2
  else if attr.type = WGDEVICE_A_FWMARK then attr.validate 4
  else true

/-- `parse_device`: a `WGDEVICE_A_PEERS` nest returns the result of its walk, every other
attribute returns `MNL_CB_OK`. -/
def parseDevice (attr : Nlattr) : Wgdevice × Sys → Option (Int × (Wgdevice × Sys))
  | (device, sys) =>
    if attr.type = WGDEVICE_A_PEERS then attrParse parsePeers attr.nested (device, sys)
    else some (MNL_CB_OK, parseDeviceField attr device, sys.validated (parseDeviceValidate attr))

/-- `read_device_cb`: the attributes after the `genlmsghdr` of one reply message. -/
def readDeviceCb (attrs : List Nlattr) (s : Wgdevice × Sys) : Option (Int × (Wgdevice × Sys)) :=
  attrParse parseDevice attrs s

/-! ### Receiving the dump -/

/-- One message of a reply as `mnlg_socket_recv_run` dispatches it. -/
inductive NlMsg where
  /-- A `WG_CMD_GET_DEVICE` message, handed to the data callback. -/
  | data (attrs : List Nlattr)
  /-- `NLMSG_DONE`, or an acknowledgement: the run ends with `MNL_CB_STOP`. -/
  | done
  /-- A message or a receive that fails the run with this `errno`: an `NLMSG_ERROR`, a
  message flagged `NLM_F_DUMP_INTR` (`EINTR`), a failed `recvfrom`. -/
  | error (errno : Nat)
deriving Repr

/-- `mnlg_socket_recv_run` with `read_device_cb`: its result and the device.  A reply that
ends without `NLMSG_DONE` ends as a `recvfrom` returning `0`. -/
def recvRun : List NlMsg → Wgdevice × Sys → Option (Int × (Wgdevice × Sys))
  | [], s => some (0, s)
  | .done :: _, s => some (MNL_CB_STOP, s)
  | .error e :: _, (device, sys) => some (MNL_CB_ERROR, device, { sys with errno := e })
  | .data attrs :: msgs, s =>
    match readDeviceCb attrs s with
    | none => none
    | some (r, s) => if r ≤ MNL_CB_STOP then some (r, s) else recvRun msgs s

/-- What one pass of `kernel_get_device` meets: whether `mnlg_socket_open` and
`mnlg_socket_send` fail, with their `errno`, and the reply. -/
structure GetAttempt where
  openErrno : Option Nat
  sendErrno : Option Nat
  reply : List NlMsg

/-- The part of a pass of `kernel_get_device` that ends at `out:`: `ret`, and the device
when `ret` is `0`.  A send that fails leaves `ret = -errno`, and the `calloc`ed device is kept
when that is `0`. -/
def getOut (a : GetAttempt) (sys : Sys) : Option (Int × Option Wgdevice × Sys) :=
  match a.sendErrno with
  | some e => some (-(e : Int), if e = 0 then some Wgdevice.zero else none, sys)
  | none =>
    match recvRun a.reply (Wgdevice.zero, { sys with errno := 0 }) with
    | none => none
    | some (r, device, sys) =>
      if r < 0 then some (if sys.errno ≠ 0 then -(sys.errno : Int) else -(EINVAL : Int), none, sys)
      else (coalescePeers device).map fun device => (0, some device, sys)

/-- `kernel_get_device` on Linux: the return value and `*device`, the pass restarting
from `try_again:` when it ends at `out:` with `-EINTR`.  `none` if the attempts run out
first, or on a `NULL` dereference. -/
def kernelGetDevice : List GetAttempt → Sys → Option (Int × Option Wgdevice)
  | [], _ => none
  | a :: as, sys =>
    let (ok, sys) := sys.calloc
    if !ok then some (-(sys.errno : Int), none)
    else
      match a.openErrno with
      | some e => some (-(e : Int), none)
      | none =>
        match getOut a sys with
        | none => none
        | some (ret, device, sys) =>
          if ret = -(EINTR : Int) then kernelGetDevice as sys else some (ret, device)

/-! ### What the decoder guarantees

Every callback of the decoder answers `MNL_CB_ERROR` or `MNL_CB_OK`, so a walk only ends
early on an error, and a successful receive has run every callback to `MNL_CB_OK`.  The
one check on that path is `parse_peers`' test of the public key, which therefore holds of
every peer handed back.
-/

/-- `MNL_CB_ERROR` or `MNL_CB_OK`: never `MNL_CB_STOP`. -/
def ErrOrOk (r : Int) : Prop := r = MNL_CB_ERROR ∨ r = MNL_CB_OK

theorem ErrOrOk.ne_zero {r : Int} (h : ErrOrOk r) : r ≠ 0 := by
  rcases h with rfl | rfl <;> decide

theorem parseAllowedips_result (attr : Nlattr) (s : Wgpeer × Sys) {r : Int} {s'}
    (h : parseAllowedips attr s = some (r, s')) : ErrOrOk r := by
  obtain ⟨peer, sys⟩ := s
  simp only [parseAllowedips] at h
  split_ifs at h with hok
  · cases h; exact .inl rfl
  · split at h
    · cases h
    · rename_i ret new sys₁ hp
      have hret : ret = MNL_CB_OK :=
        attrParse_result (· = MNL_CB_OK) rfl (fun _ _ _ _ h => by cases h; rfl) _ _ hp
      split at h
      · cases h
      · subst hret
        split_ifs at h <;> cases h
        · exact absurd ‹MNL_CB_OK = 0› (by decide)
        · exact .inl rfl
        · exact .inr rfl

theorem parsePeer_result (attr : Nlattr) (s : Wgpeer × Sys) {r : Int} {s'}
    (h : parsePeer attr s = some (r, s')) : ErrOrOk r := by
  obtain ⟨peer, sys⟩ := s
  simp only [parsePeer] at h
  split_ifs at h
  · exact attrParse_result ErrOrOk (.inr rfl) (fun a s _ _ => parseAllowedips_result a s) _ _ h
  · cases h; exact .inr rfl

/-- Every peer of the device carries its public key. -/
def PeersKeyed (device : Wgdevice) : Prop := ∀ p ∈ device.peers, p.flags.hasPublicKey

theorem parsePeers_result (attr : Nlattr) (s : Wgdevice × Sys) {r : Int} {s'}
    (h : parsePeers attr s = some (r, s')) :
    ErrOrOk r ∧ (PeersKeyed s.1 → MNL_CB_STOP < r → PeersKeyed s'.1) := by
  obtain ⟨device, sys⟩ := s
  simp only [parsePeers] at h
  split_ifs at h with hok
  · cases h; exact ⟨.inl rfl, fun _ h => absurd h (by decide)⟩
  · split at h
    · cases h
    · rename_i ret newPeer sys' hp
      have hret := attrParse_result ErrOrOk (.inr rfl) (fun a s _ _ => parsePeer_result a s) _ _ hp
      split at h
      · cases h
      · rename_i chain last hlink
        split_ifs at h with h0 hkey <;> cases h
        · exact absurd h0 hret.ne_zero
        · exact ⟨.inl rfl, fun _ h => absurd h (by decide)⟩
        · refine ⟨.inr rfl, fun hk _ p hp => ?_⟩
          rcases mem_of_linkLast hlink hp with hp | rfl
          · exact hk p hp
          · simpa using hkey

theorem parseDevice_result (attr : Nlattr) (s : Wgdevice × Sys) {r : Int} {s'}
    (h : parseDevice attr s = some (r, s')) :
    ErrOrOk r ∧ (PeersKeyed s.1 → MNL_CB_STOP < r → PeersKeyed s'.1) := by
  obtain ⟨device, sys⟩ := s
  simp only [parseDevice] at h
  split_ifs at h
  · exact ⟨attrParse_result ErrOrOk (.inr rfl) (fun a s _ _ h => (parsePeers_result a s h).1) _ _ h,
      fun hk hr => attrParse_inv (PeersKeyed ·.1)
        (fun a s _ _ hs h hr => (parsePeers_result a s h).2 hs hr) _ _ hk h hr⟩
  · cases h
    exact ⟨.inr rfl, fun hk _ => by simpa [PeersKeyed] using hk⟩

theorem readDeviceCb_result (attrs : List Nlattr) (s : Wgdevice × Sys) {r : Int} {s'}
    (h : readDeviceCb attrs s = some (r, s')) :
    ErrOrOk r ∧ (PeersKeyed s.1 → MNL_CB_STOP < r → PeersKeyed s'.1) :=
  ⟨attrParse_result ErrOrOk (.inr rfl) (fun a s _ _ h => (parseDevice_result a s h).1) _ _ h,
    fun hk hr => attrParse_inv (PeersKeyed ·.1)
      (fun a s _ _ hs h hr => (parseDevice_result a s h).2 hs hr) _ _ hk h hr⟩

/-- A receive that does not fail leaves the device as keyed as it found it: no callback
returns `MNL_CB_STOP`, so the run ends early only on an error. -/
theorem recvRun_keyed : ∀ (msgs : List NlMsg) (s : Wgdevice × Sys) {r : Int} {s'},
    recvRun msgs s = some (r, s') → 0 ≤ r → PeersKeyed s.1 → PeersKeyed s'.1
  | [], _, _, _, h, _, hk => by cases h; exact hk
  | .done :: _, _, _, _, h, _, hk => by cases h; exact hk
  | .error _ :: _, _, _, _, h, hr, _ => by cases h; exact absurd hr (by decide)
  | .data attrs :: msgs, s, r, s', h, hr, hk => by
    simp only [recvRun] at h
    split at h
    · cases h
    · rename_i r₁ s₁ h₁
      obtain ⟨herr, hinv⟩ := readDeviceCb_result attrs s h₁
      split_ifs at h with hstop
      · cases h
        rcases herr with rfl | rfl
        · exact absurd hr (by decide)
        · exact absurd hstop (by decide)
      · exact recvRun_keyed msgs s₁ h hr (hinv hk (Int.not_le.mp hstop))

theorem mergeAllowedips_flags {p q p' : Wgpeer} (h : mergeAllowedips p q = some p') :
    p'.flags = p.flags := by
  unfold mergeAllowedips at h
  split at h <;> cases h <;> rfl

theorem coalesceFrom_keyed : ∀ (rest : List Wgpeer) (p : Wgpeer) {out : List Wgpeer},
    coalesceFrom p rest = some out → p.flags.hasPublicKey →
      (∀ q ∈ rest, q.flags.hasPublicKey) → ∀ q ∈ out, q.flags.hasPublicKey
  | [], p, out, h, hp, _ => by cases h; simpa using hp
  | q :: rest, p, out, h, hp, hrest => by
    simp only [coalesceFrom] at h
    split_ifs at h
    · obtain ⟨out', h', rfl⟩ := Option.map_eq_some'.mp h
      intro x hx
      rcases List.mem_cons.mp hx with rfl | hx
      · exact hp
      · exact coalesceFrom_keyed rest q h' (hrest q (List.mem_cons_self _ _))
          (fun x hx => hrest x (List.mem_cons_of_mem _ hx)) x hx
    · obtain ⟨p', hm, h'⟩ := Option.bind_eq_some.mp h
      exact coalesceFrom_keyed rest p' h' (by rw [mergeAllowedips_flags hm]; exact hp)
        (fun x hx => hrest x (List.mem_cons_of_mem _ hx))

theorem coalescePeers_keyed {device device' : Wgdevice} (h : coalescePeers device = some device')
    (hk : PeersKeyed device) : PeersKeyed device' := by
  unfold coalescePeers at h
  split at h
  · cases h; exact hk
  · rename_i p rest hd
    obtain ⟨out, h', rfl⟩ := Option.map_eq_some'.mp h
    rw [PeersKeyed, hd] at hk
    exact coalesceFrom_keyed rest p h' (hk p (List.mem_cons_self _ _))
      (fun x hx => hk x (List.mem_cons_of_mem _ hx))

/-- A pass that ends at `out:` with `0` hands back a coalesced device whose peers all
have their keys. -/
theorem getOut_keyed {a : GetAttempt} {sys sys' : Sys} {d : Option Wgdevice}
    (h : getOut a sys = some (0, d, sys')) : ∀ device ∈ d, PeersKeyed device := by
  unfold getOut at h
  split at h
  · simp only [Option.some.injEq, Prod.mk.injEq] at h
    obtain ⟨-, rfl, -⟩ := h
    intro device hd
    split_ifs at hd <;> cases hd
    exact fun p hp => nomatch hp
  · split at h
    · cases h
    · rename_i r device₀ sys₀ hrun
      by_cases hr : r < 0
      · rw [if_pos hr] at h
        simp only [Option.some.injEq, Prod.mk.injEq] at h
        obtain ⟨-, rfl, -⟩ := h
        simp
      · rw [if_neg hr] at h
        obtain ⟨device₁, hc, hd⟩ := Option.map_eq_some'.mp h
        simp only [Prod.mk.injEq] at hd
        obtain ⟨-, rfl, -⟩ := hd
        rintro device ⟨⟩
        exact coalescePeers_keyed hc
          (recvRun_keyed a.reply _ hrun (Int.not_lt.mp hr) (fun _ h => by cases h))

/-- **Every peer of a successful netlink GET has its public key.** -/
theorem kernelGetDevice_hasPublicKey : ∀ (attempts : List GetAttempt) (sys : Sys) {device : Wgdevice},
    kernelGetDevice attempts sys = some (0, some device) → ∀ p ∈ device.peers, p.flags.hasPublicKey
  | [], _, _, h => by cases h
  | a :: as, sys, device, h => by
    simp only [kernelGetDevice] at h
    split_ifs at h
    · simp at h
    · split at h
      · simp at h
      · split at h
        · cases h
        · rename_i ret d sys' hout
          split_ifs at h with hintr
          · exact kernelGetDevice_hasPublicKey as _ h
          · simp only [Option.some.injEq, Prod.mk.injEq] at h
            obtain ⟨rfl, rfl⟩ := h
            exact getOut_keyed hout device rfl

/-! ### Every receive ends

Every chain the decoder links a node to starts empty or was linked by it, so its `last`
pointer is on its last node and no `linkLast` meets a `NULL` one: a receive always gives a
result, and a pass gives none only where `coalesce_peers` dereferences `NULL`.
-/

/-- `last_peer` is on the last peer. -/
def Wgdevice.LastOK (d : Wgdevice) : Prop := d.lastPeer = lastIndex d.peers

theorem parseAllowedips_total (attr : Nlattr) (s : Wgpeer × Sys) (hs : s.1.LastOK) :
    ∃ r s', parseAllowedips attr s = some (r, s') ∧ s'.1.LastOK := by
  obtain ⟨peer, sys⟩ := s
  rcases hc : sys.calloc with ⟨_ | _, sys₁⟩
  · exact ⟨MNL_CB_ERROR, (peer, sys₁), by simp [parseAllowedips, hc], hs⟩
  obtain ⟨ret, ⟨new, sys₂⟩, hwalk, -⟩ : ∃ r s', attrParse parseAllowedip attr.nested
      (Wgallowedip.zero, sys₁) = some (r, s') ∧ True :=
    attrParse_total (fun _ => True) (fun _ ⟨_, _⟩ _ => ⟨_, _, rfl, trivial⟩) _ _ trivial
  simp only [parseAllowedips, hc, Bool.not_true, Bool.false_eq_true, if_false, hwalk,
    show peer.lastAllowedip = lastIndex peer.allowedips from hs, linkLast_lastIndex]
  split_ifs <;> exact ⟨_, _, rfl, rfl⟩

theorem parsePeer_total (attr : Nlattr) (s : Wgpeer × Sys) (hs : s.1.LastOK) :
    ∃ r s', parsePeer attr s = some (r, s') ∧ s'.1.LastOK := by
  obtain ⟨peer, sys⟩ := s
  by_cases ht : attr.type = WGPEER_A_ALLOWEDIPS
  · simp only [parsePeer, if_pos ht]
    exact attrParse_total _ parseAllowedips_total _ _ hs
  · exact ⟨_, (parsePeerField attr peer, _), by rw [parsePeer, if_neg ht],
      by simpa [Wgpeer.LastOK] using hs⟩

theorem parsePeers_total (attr : Nlattr) (s : Wgdevice × Sys) (hs : s.1.LastOK) :
    ∃ r s', parsePeers attr s = some (r, s') ∧ s'.1.LastOK := by
  obtain ⟨device, sys⟩ := s
  rcases hc : sys.calloc with ⟨_ | _, sys₁⟩
  · exact ⟨MNL_CB_ERROR, (device, sys₁), by simp [parsePeers, hc], hs⟩
  obtain ⟨ret, ⟨peer, sys₂⟩, hwalk, -⟩ :=
    attrParse_total _ parsePeer_total attr.nested (Wgpeer.zero, sys₁) rfl
  simp only [parsePeers, hc, Bool.not_true, Bool.false_eq_true, if_false, hwalk,
    show device.lastPeer = lastIndex device.peers from hs, linkLast_lastIndex]
  split_ifs <;> exact ⟨_, _, rfl, rfl⟩

theorem parseDevice_total (attr : Nlattr) (s : Wgdevice × Sys) (hs : s.1.LastOK) :
    ∃ r s', parseDevice attr s = some (r, s') ∧ s'.1.LastOK := by
  obtain ⟨device, sys⟩ := s
  by_cases ht : attr.type = WGDEVICE_A_PEERS
  · simp only [parseDevice, if_pos ht]
    exact attrParse_total _ parsePeers_total _ _ hs
  · exact ⟨_, (parseDeviceField attr device, _), by rw [parseDevice, if_neg ht],
      by simpa [Wgdevice.LastOK] using hs⟩

/-- **A receive always ends**: the decoder never dereferences a `NULL` `last` pointer. -/
theorem recvRun_total : ∀ (msgs : List NlMsg) (s : Wgdevice × Sys), s.1.LastOK →
    recvRun msgs s ≠ none
  | [], _, _ => nofun
  | .done :: _, _, _ => nofun
  | .error _ :: _, _, _ => nofun
  | .data attrs :: msgs, s, hs => by
    obtain ⟨r, s', h, hs'⟩ := attrParse_total _ parseDevice_total attrs s hs
    rw [recvRun, show readDeviceCb attrs s = some (r, s') from h]
    dsimp only
    split_ifs
    · exact Option.some_ne_none _
    · exact recvRun_total msgs s' hs'

/-- A pass gives no result only where `coalesce_peers` dereferences `NULL`. -/
theorem getOut_eq_none {a : GetAttempt} {sys : Sys} (h : getOut a sys = none) :
    a.sendErrno = none ∧ ∃ r device sys', recvRun a.reply (Wgdevice.zero, { sys with errno := 0 }) =
      some (r, device, sys') ∧ 0 ≤ r ∧ coalescePeers device = none := by
  unfold getOut at h
  split at h
  · cases h
  rename_i hsend
  rcases hrun : recvRun a.reply (Wgdevice.zero, { sys with errno := 0 }) with _ | ⟨r, device, sys'⟩
  · exact absurd hrun (recvRun_total _ _ rfl)
  rw [hrun] at h
  dsimp only at h
  split_ifs at h with hr
  refine ⟨hsend, r, device, sys', rfl, Int.not_lt.mp hr, ?_⟩
  simpa using h

/-- A pass of `kernel_get_device` on this attempt reaches `coalesce_peers` with a device whose
merge dereferences `NULL`. -/
def GetAttempt.Crashes (a : GetAttempt) : Prop :=
  a.openErrno = none ∧ a.sendErrno = none ∧ ∃ sys r device sys',
    recvRun a.reply (Wgdevice.zero, sys) = some (r, device, sys') ∧ 0 ≤ r ∧
      coalescePeers device = none

/-- A pass on this attempt ends at `out:` with `-EINTR`, and the GET tries again. -/
def GetAttempt.Interrupted (a : GetAttempt) : Prop :=
  a.openErrno = none ∧ ∃ sys d sys', getOut a sys = some (-(EINTR : Int), d, sys')

/-- The GET gives no result only when a pass meets the `NULL` of `coalesce_peers`, or when every
attempt it is given is interrupted and it would try again. -/
theorem kernelGetDevice_eq_none : ∀ {attempts : List GetAttempt} {sys : Sys},
    kernelGetDevice attempts sys = none →
      (∃ a ∈ attempts, a.Crashes) ∨ ∀ a ∈ attempts, a.Interrupted
  | [], _, _ => .inr nofun
  | a :: as, sys, h => by
    rcases hc : sys.calloc with ⟨_ | _, sys₁⟩
    · simp [kernelGetDevice, hc] at h
    simp only [kernelGetDevice, hc, Bool.not_true, Bool.false_eq_true, if_false] at h
    rcases ho : a.openErrno with _ | e
    · rcases hout : getOut a sys₁ with _ | ⟨ret, d, sys₂⟩
      · obtain ⟨hsend, r, device, sys', hrun, hr, hco⟩ := getOut_eq_none hout
        exact .inl ⟨a, List.mem_cons_self a as, ho, hsend, _, r, device, sys', hrun, hr, hco⟩
      simp only [ho, hout] at h
      split_ifs at h with hi
      · rcases kernelGetDevice_eq_none h with ⟨a', ha', hcr⟩ | hall
        · exact .inl ⟨a', List.mem_cons_of_mem a ha', hcr⟩
        · refine .inr (List.forall_mem_cons.2 ⟨⟨ho, sys₁, d, sys₂, ?_⟩, hall⟩)
          rw [hout, hi]
    · simp [ho] at h

/-- A pass that ends at `out:` returns `0` with the device, or a negative error without one. -/
theorem getOut_result {a : GetAttempt} {sys sys' : Sys} {ret : Int} {d : Option Wgdevice}
    (h : getOut a sys = some (ret, d, sys')) : ret = 0 ∧ d.isSome ∨ ret < 0 ∧ d = none := by
  unfold getOut at h
  split at h
  · simp only [Option.some.injEq, Prod.mk.injEq] at h
    obtain ⟨rfl, rfl, -⟩ := h
    rename_i e _
    by_cases he : e = 0
    · exact .inl ⟨by simp [he], by simp [he]⟩
    · exact .inr ⟨by omega, if_neg he⟩
  · split at h
    · cases h
    · rename_i r device₀ sys₀ hrun
      by_cases hr : r < 0
      · rw [if_pos hr] at h
        simp only [Option.some.injEq, Prod.mk.injEq] at h
        obtain ⟨rfl, rfl, -⟩ := h
        refine .inr ⟨?_, rfl⟩
        split_ifs with he
        · omega
        · simp [EINVAL]
      · rw [if_neg hr] at h
        obtain ⟨device₁, -, hd⟩ := Option.map_eq_some'.mp h
        simp only [Prod.mk.injEq] at hd
        obtain ⟨rfl, rfl, -⟩ := hd
        exact .inl ⟨rfl, rfl⟩

/-- **The GET retries an interrupted dump.**  It returns `0` with a device or a negative error
without one, and `-EINTR` only when `mnlg_socket_open` fails with it, as long as each failed
open sets a non-zero `errno`. -/
theorem kernelGetDevice_result : ∀ (attempts : List GetAttempt) (sys : Sys),
    (∀ a ∈ attempts, a.openErrno ≠ some 0) →
    ∀ {ret : Int} {d : Option Wgdevice}, kernelGetDevice attempts sys = some (ret, d) →
      (ret = 0 ∧ d.isSome ∨ ret < 0 ∧ d = none) ∧
        (ret = -(EINTR : Int) → ∃ a ∈ attempts, a.openErrno = some EINTR)
  | [], _, _, _, _, h => by cases h
  | a :: as, sys, ha, ret, d, h => by
    have hopen := ha a (List.mem_cons_self a as)
    rcases hc : sys.calloc with ⟨_ | _, sys₁⟩
    · simp only [kernelGetDevice, hc, Bool.not_false, if_true, Option.some.injEq,
        Prod.mk.injEq] at h
      obtain ⟨rfl, rfl⟩ := h
      have he := Sys.calloc_errno hc
      exact ⟨.inr ⟨by simp [he, ENOMEM], rfl⟩, fun h' => absurd h' (by simp [he, ENOMEM, EINTR])⟩
    simp only [kernelGetDevice, hc, Bool.not_true, Bool.false_eq_true, if_false] at h
    rcases ho : a.openErrno with _ | e
    · rcases hout : getOut a sys₁ with _ | ⟨ret', d', sys₂⟩
      · simp [ho, hout] at h
      simp only [ho, hout] at h
      by_cases hi : ret' = -(EINTR : Int)
      · rw [if_pos hi] at h
        obtain ⟨hres, hintr⟩ :=
          kernelGetDevice_result as sys₂ (fun a' h' => ha a' (List.mem_cons_of_mem a h')) h
        exact ⟨hres, fun h' => (hintr h').imp fun a' ⟨hm, he⟩ => ⟨List.mem_cons_of_mem a hm, he⟩⟩
      · rw [if_neg hi] at h
        obtain ⟨rfl, rfl⟩ := Prod.mk.inj (Option.some.inj h)
        exact ⟨getOut_result hout, fun h' => absurd h' hi⟩
    · simp only [ho, Option.some.injEq, Prod.mk.injEq] at h
      obtain ⟨rfl, rfl⟩ := h
      have he : e ≠ 0 := fun h0 => hopen (by rw [ho, h0])
      exact ⟨.inr ⟨by omega, rfl⟩, fun h' => ⟨a, List.mem_cons_self a as, by rw [ho]; congr; omega⟩⟩

/-! ### An error that is dropped

`parse_allowedips` answers `MNL_CB_ERROR` for an `AF_INET` allowed-ip of prefix 33, the
walk of the peer's attributes stops there with that result, and `parse_peers`, seeing a
result other than `MNL_CB_STOP` and a key, answers `MNL_CB_OK`.
-/

/-- A reply whose one peer has its key and then an `AF_INET` allowed-ip of prefix 33. -/
def badCidrReply : List NlMsg :=
  [.data [.nest WGDEVICE_A_PEERS [.nest 0 [.attr WGPEER_A_PUBLIC_KEY (List.replicate 32 1),
    .nest WGPEER_A_ALLOWEDIPS [.nest 0 [.u16 WGALLOWEDIP_A_FAMILY 2, .u8 WGALLOWEDIP_A_CIDR_MASK 33]]]]],
   .done]

/-- **The GET succeeds with the rejected allowed-ip in place.** -/
theorem kernelGetDevice_keeps_invalid_allowedip :
    ∃ device, kernelGetDevice [⟨none, none, badCidrReply⟩] ⟨[], 0⟩ = some (0, some device) ∧
      ∃ p ∈ device.peers, p.flags.hasPublicKey = true ∧
        ∃ a ∈ p.allowedips, a.family.toNat = AF_INET ∧ a.cidr.toNat = 33 :=
  ⟨_, rfl, _, List.mem_singleton_self _, rfl, _, List.mem_singleton_self _, rfl, rfl⟩

end WireguardIpc
