/-
The netlink SET encoder and its chunking.

`kernel_set_device` builds one `WG_CMD_SET_DEVICE` message after another in a buffer of
`SOCKET_BUFFER_SIZE` bytes.  The interface name, the device-level attributes (first
message only) and the peers nest are put unchecked; every peer, and every allowed-ip
inside it, is put with the `_check` variants.  When a check fails the code rolls back the
innermost open nest — the peer (`toobig_peers`) or the allowed-ip (`toobig_allowedips`) —
closes the others, sends what it has and starts again from `again:` with the cursors
`peer` and `allowedip` where they stopped.  A peer resumed with `allowedip` set gets an
entry without its first-entry fields.

The model keeps the code's control flow: `allowedipLoop` and `peerLoop` are the two loops
with their exits, `buildMessage` is one pass from `again:` to `send:`, `setLoop` the
`goto again` loop.  A pointer into a chain is the chain's suffix from that node, `[]`
being `NULL`.  The capacity is a parameter, as `SOCKET_BUFFER_SIZE` is.
-/
import WireguardIpc.Netlink.Get

namespace WireguardIpc

/-! ### The attributes the encoder puts -/

/-- `nlmsg_len` after `mnlg_msg_prepare`. -/
def PREPARED_LEN : Nat := MNL_NLMSG_HDRLEN + GENL_HDRLEN

/-- The length of a message with these top-level attributes. -/
def msgLen (attrs : List Nlattr) : Nat := PREPARED_LEN + Nlattr.sizes attrs

/-- The device-level attributes of the first message, in the order they are put. -/
def deviceAttrs (dev : Wgdevice) : List Nlattr :=
  (if dev.flags.hasPrivateKey then [.attr WGDEVICE_A_PRIVATE_KEY dev.privateKey.data] else []) ++
  (if dev.flags.hasListenPort then [.u16 WGDEVICE_A_LISTEN_PORT dev.listenPort] else []) ++
  (if dev.flags.hasFwmark then [.u32 WGDEVICE_A_FWMARK dev.fwmark] else []) ++
  (if dev.flags.replacePeers then [.u32 WGDEVICE_A_FLAGS (UInt32.ofNat WGDEVICE_F_REPLACE_PEERS)]
   else [])

/-- The endpoint attribute of a peer, if its family is one the code sends. -/
def endpointAttr (peer : Wgpeer) : List Nlattr :=
  if peer.endpoint.family = AF_INET then
    [.attr WGPEER_A_ENDPOINT (peer.endpoint.data.take SOCKADDR_IN_LEN)]
  else if peer.endpoint.family = AF_INET6 then [.attr WGPEER_A_ENDPOINT peer.endpoint.data]
  else []

/-- The `WGPEER_A_FLAGS` word of an entry; `fresh` is `!allowedip`. -/
def peerFlagsWord (peer : Wgpeer) (fresh : Bool) : Nat :=
  (if peer.flags.removeMe then WGPEER_F_REMOVE_ME else 0) |||
    (if fresh && peer.flags.replaceAllowedips then WGPEER_F_REPLACE_ALLOWEDIPS else 0)

/-- The attributes of a peer entry before its allowed-ips, in the order they are put. -/
def peerAttrs (peer : Wgpeer) (fresh : Bool) : List Nlattr :=
  [.attr WGPEER_A_PUBLIC_KEY peer.publicKey.data] ++
  (if fresh then
    (if peer.flags.hasPresharedKey then [.attr WGPEER_A_PRESHARED_KEY peer.presharedKey.data]
     else []) ++
    endpointAttr peer ++
    (if peer.flags.hasPersistentKeepaliveInterval then
      [.u16 WGPEER_A_PERSISTENT_KEEPALIVE_INTERVAL peer.persistentKeepaliveInterval] else [])
   else []) ++
  (if peerFlagsWord peer fresh ≠ 0 then [.u32 WGPEER_A_FLAGS (UInt32.ofNat (peerFlagsWord peer fresh))]
   else [])

/-- The attributes of one allowed-ip nest, in the order they are put. -/
def allowedipAttrs (a : Wgallowedip) : List Nlattr :=
  [.u16 WGALLOWEDIP_A_FAMILY a.family] ++
  (if a.family.toNat = AF_INET then [.attr WGALLOWEDIP_A_IPADDR (a.ip.data.take 4)]
   else if a.family.toNat = AF_INET6 then [.attr WGALLOWEDIP_A_IPADDR a.ip.data] else []) ++
  [.u8 WGALLOWEDIP_A_CIDR_MASK a.cidr]

/-- One allowed-ip nest. -/
def allowedipAttr (a : Wgallowedip) : Nlattr := .nest 0 (allowedipAttrs a)

/-! ### Checked puts -/

/-- The `_check` puts of a run of attributes from `nlmsg_len = len`: the new length, or
`none` at the first that does not fit in `cap`. -/
def putsCheck (cap : Nat) : Nat → List Nlattr → Option Nat
  | len, [] => some len
  | len, a :: as => if len + a.size ≤ cap then putsCheck cap (len + a.size) as else none

/-- `mnl_attr_nest_start_check` and the checked puts of the nest's attributes. -/
def nestCheck (cap len : Nat) (as : List Nlattr) : Option Nat :=
  if len + MNL_ATTR_HDRLEN ≤ cap then putsCheck cap (len + MNL_ATTR_HDRLEN) as else none

/-! ### The loops -/

/-- Where the allowed-ip loop ends: the nests it put, the length, and the cursor
`allowedip` (`[]` once it ran off the end of the chain). -/
structure AllowedipLoopOut where
  entries : List Nlattr
  len : Nat
  allowedip : List Wgallowedip

/-- The inner loop from the allowed-ip `allowedip` points to. -/
def allowedipLoop (cap : Nat) : Nat → List Wgallowedip → AllowedipLoopOut
  | len, [] => ⟨[], len, []⟩
  | len, a :: rest =>
    match nestCheck cap len (allowedipAttrs a) with
    | none => ⟨[], len, a :: rest⟩
    | some len' =>
      let r := allowedipLoop cap len' rest
      ⟨allowedipAttr a :: r.entries, r.len, r.allowedip⟩

/-- Where the peer loop of a message ends: the peer nests it leaves in the peers nest, the
length, and the cursors `peer` and `allowedip`. -/
structure PeerLoopOut where
  entries : List Nlattr
  len : Nat
  peer : List Wgpeer
  allowedip : List Wgallowedip

/-- The peer loop from the peer `peer` points to, with `allowedip` as it stands. -/
def peerLoop (cap : Nat) : Nat → List Wgpeer → List Wgallowedip → PeerLoopOut
  | len, [], allowedip => ⟨[], len, [], allowedip⟩
  | len, peer :: rest, allowedip =>
    let attrs := peerAttrs peer allowedip.isEmpty
    match nestCheck cap len attrs with
    | none => ⟨[], len, peer :: rest, allowedip⟩
    | some len₁ =>
      match peer.allowedips with
      | [] =>
        let o := peerLoop cap len₁ rest allowedip
        ⟨.nest 0 attrs :: o.entries, o.len, o.peer, o.allowedip⟩
      | _ :: _ =>
        let allowedip := if allowedip.isEmpty then peer.allowedips else allowedip
        if len₁ + MNL_ATTR_HDRLEN ≤ cap then
          let r := allowedipLoop cap (len₁ + MNL_ATTR_HDRLEN) allowedip
          let entry := Nlattr.nest 0 (attrs ++ [.nest WGPEER_A_ALLOWEDIPS r.entries])
          match r.allowedip with
          | [] =>
            let o := peerLoop cap r.len rest []
            ⟨entry :: o.entries, o.len, o.peer, o.allowedip⟩
          | _ :: _ => ⟨[entry], r.len, peer :: rest, r.allowedip⟩
        else ⟨[.nest 0 attrs], len₁, peer :: rest, allowedip⟩

/-- What one pass from `again:` to `send:` leaves: the message, and the cursors. -/
structure MessageOut where
  msg : List Nlattr
  peer : List Wgpeer
  allowedip : List Wgallowedip

/-- One pass from `again:` to `send:`. -/
def buildMessage (cap : Nat) (dev : Wgdevice) (peer : List Wgpeer) (allowedip : List Wgallowedip) :
    MessageOut :=
  let top := [Nlattr.strz WGDEVICE_A_IFNAME dev.name.chars] ++
    (if peer.isEmpty then deviceAttrs dev else [])
  match dev.peers with
  | [] => ⟨top, peer, allowedip⟩
  | _ :: _ =>
    let o := peerLoop cap (msgLen top + MNL_ATTR_HDRLEN)
      (if peer.isEmpty then dev.peers else peer) allowedip
    ⟨top ++ [.nest WGDEVICE_A_PEERS o.entries], o.peer, o.allowedip⟩

/-! ### Sending -/

/-- What sending one message meets. -/
inductive SendOutcome where
  /-- `mnlg_socket_send` fails with this `errno`. -/
  | sendFails (errno : Nat)
  /-- `mnlg_socket_recv_run` fails, leaving this `errno` (possibly `0`). -/
  | recvFails (errno : Nat)
  /-- The kernel acknowledges the message. -/
  | acked
deriving Repr, DecidableEq

/-- The `goto again` loop: the messages handed to `mnlg_socket_send`, and `ret`.  The
outcomes are taken in order, every message being acknowledged once they are used up;
`none` when `fuel` runs out. -/
def setLoop (cap : Nat) (dev : Wgdevice) :
    Nat → List SendOutcome → List Wgpeer → List Wgallowedip → Option (List (List Nlattr) × Int)
  | 0, _, _, _ => none
  | fuel + 1, outs, peer, allowedip =>
    let r := buildMessage cap dev peer allowedip
    match outs with
    | .sendFails e :: _ => some ([r.msg], -(e : Int))
    | .recvFails e :: _ => some ([r.msg], if e ≠ 0 then -(e : Int) else -(EINVAL : Int))
    | outs =>
      if r.peer.isEmpty then some ([r.msg], 0)
      else (setLoop cap dev fuel outs.tail r.peer r.allowedip).map fun (msgs, ret) => (r.msg :: msgs, ret)

/-- `kernel_set_device` on Linux, with `SOCKET_BUFFER_SIZE = cap`: `mnlg_socket_open`
failing with `openErrno`, then the message loop from `peer = allowedip = NULL`. -/
def kernelSetDevice (cap : Nat) (openErrno : Option Nat) (outs : List SendOutcome)
    (dev : Wgdevice) (fuel : Nat) : Option (List (List Nlattr) × Int) :=
  match openErrno with
  | some e => some ([], -(e : Int))
  | none => setLoop cap dev fuel outs [] []

/-! ### Checked puts are all or nothing

A run of checked puts stops at the first attribute that does not fit; since every
attribute has a positive size, the run goes through exactly when its total does.
-/

theorem putsCheck_eq {cap len : Nat} (as : List Nlattr) (h : len ≤ cap) :
    putsCheck cap len as =
      if len + Nlattr.sizes as ≤ cap then some (len + Nlattr.sizes as) else none := by
  induction as generalizing len with
  | nil => simp [putsCheck, h]
  | cons a as ih =>
    simp only [putsCheck, Nlattr.sizes_cons, ← Nat.add_assoc]
    by_cases ha : len + a.size ≤ cap
    · rw [if_pos ha, ih ha]
    · have : ¬ len + a.size + Nlattr.sizes as ≤ cap := by omega
      rw [if_neg ha, if_neg this]

theorem nestCheck_eq (cap len : Nat) (as : List Nlattr) :
    nestCheck cap len as =
      if len + (Nlattr.nest 0 as).size ≤ cap then some (len + (Nlattr.nest 0 as).size) else none := by
  simp only [nestCheck, Nlattr.size_nest, ← Nat.add_assoc]
  by_cases h : len + MNL_ATTR_HDRLEN ≤ cap
  · rw [if_pos h, putsCheck_eq as h]
  · have : ¬ len + MNL_ATTR_HDRLEN + Nlattr.sizes as ≤ cap := by omega
    rw [if_neg h, if_neg this]

/-! ### The allowed-ip loop -/

/-- **The allowed-ip loop** puts a prefix `done` of the chain, one nest each, keeps the
length in step with what it put, never passes `cap`, and puts at least one nest when the
first fits. -/
theorem allowedipLoop_spec (cap len : Nat) (aips : List Wgallowedip) :
    ∃ done, aips = done ++ (allowedipLoop cap len aips).allowedip ∧
      (allowedipLoop cap len aips).entries = done.map allowedipAttr ∧
      (allowedipLoop cap len aips).len = len + Nlattr.sizes (done.map allowedipAttr) ∧
      (len ≤ cap → (allowedipLoop cap len aips).len ≤ cap) ∧
      (∀ a ∈ aips.head?, len + (allowedipAttr a).size ≤ cap → done ≠ []) := by
  induction aips generalizing len with
  | nil => exact ⟨[], rfl, rfl, by simp [allowedipLoop], id, by simp⟩
  | cons a rest ih =>
    rw [allowedipLoop, nestCheck_eq]
    by_cases hfit : len + (Nlattr.nest 0 (allowedipAttrs a)).size ≤ cap
    · obtain ⟨done, hsplit, hes, hlen, hle, -⟩ := ih (len + (Nlattr.nest 0 (allowedipAttrs a)).size)
      rw [if_pos hfit]
      refine ⟨a :: done, congrArg (a :: ·) hsplit, congrArg (allowedipAttr a :: ·) hes, ?_,
        fun _ => hle hfit, fun _ _ _ => List.cons_ne_nil _ _⟩
      simp only [hlen, List.map_cons, Nlattr.sizes_cons, Nat.add_assoc]
      rfl
    · rw [if_neg hfit]
      exact ⟨[], rfl, rfl, by simp, id, fun b hb h => absurd (by cases hb; exact h) hfit⟩

/-! ### What the peer loop leaves in a message

A peer's allowed-ips may be spread over several messages.  The first entry of the peer is
`fresh` and carries the first-entry fields; an entry that resumes a peer carries only its
key, its `WGPEER_F_REMOVE_ME` bit and the allowed-ips from the cursor on.  `Emits peer c E`
says that the entries `E`, over all the messages still to come, are exactly what the peers
from cursor `(peer, c)` on are owed.
-/

/-- A peer entry as the code leaves it: the peer's attributes, then, unless the
allowed-ips nest was not begun, the allowed-ips it carries. -/
def peerEntry (peer : Wgpeer) (fresh : Bool) : Option (List Wgallowedip) → Nlattr
  | none => .nest 0 (peerAttrs peer fresh)
  | some aips => .nest 0 (peerAttrs peer fresh ++ [.nest WGPEER_A_ALLOWEDIPS (aips.map allowedipAttr)])

/-- Entries that resume a peer at cursor `c`: each carries at least one allowed-ip, and
together they carry those of `c`, in order. -/
def Continues (peer : Wgpeer) (c : List Wgallowedip) (es : List Nlattr) : Prop :=
  ∃ chunks : List (List Wgallowedip), es = chunks.map (fun l => peerEntry peer false (some l)) ∧
    chunks.flatten = c ∧ ∀ l ∈ chunks, l ≠ []

/-- The entries still owed from cursor `(peer, allowedip)` on. -/
def Emits : List Wgpeer → List Wgallowedip → List Nlattr → Prop
  | [], _, E => E = []
  | p :: rest, [], E => ∃ ch c es E', E = peerEntry p true ch :: es ++ E' ∧
      p.allowedips = ch.getD [] ++ c ∧ Continues p c es ∧ Emits rest [] E'
  | p :: rest, c@(_ :: _), E => ∃ es E', E = es ++ E' ∧ Continues p c es ∧ Emits rest [] E'

/-- The cursor `allowedip` points into the chain of the peer `peer` points to. -/
def CursorOK (peers : List Wgpeer) (c : List Wgallowedip) : Prop :=
  ∀ p ∈ peers.head?, c <:+ p.allowedips

/-- A resumed peer fits with one allowed-ip at length `len`. -/
def FitsCont (cap len : Nat) (peers : List Wgpeer) (c : List Wgallowedip) : Prop :=
  ∀ p ∈ peers.head?, ∀ a ∈ c.head?, len + (peerEntry p false (some [a])).size ≤ cap

/-- The units still to send: one per peer not begun and one per allowed-ip not sent. -/
def pendingAll (peers : List Wgpeer) : Nat := (peers.map fun p => 1 + p.allowedips.length).sum

/-- The units still to send from cursor `(peer, allowedip)` on. -/
def pending : List Wgpeer → List Wgallowedip → Nat
  | [], _ => 0
  | p :: rest, c => (if c.isEmpty then 1 + p.allowedips.length else c.length) + pendingAll rest

@[simp] theorem pendingAll_nil : pendingAll [] = 0 := rfl
@[simp] theorem pendingAll_cons (p : Wgpeer) (rest : List Wgpeer) :
    pendingAll (p :: rest) = 1 + p.allowedips.length + pendingAll rest := by
  simp [pendingAll]

theorem pending_fresh (peers : List Wgpeer) : pending peers [] = pendingAll peers := by
  cases peers <;> simp [pending]

theorem pending_le (p : Wgpeer) (rest : List Wgpeer) {c : List Wgallowedip}
    (hc : c <:+ p.allowedips) : pending (p :: rest) c ≤ pendingAll (p :: rest) := by
  have := hc.length_le
  cases c <;> simp only [pending, pendingAll_cons, List.isEmpty_nil, List.isEmpty_cons,
    List.length_cons, Bool.false_eq_true, if_true, if_false] at this ⊢ <;> omega

@[simp] theorem size_peerEntry_none (p : Wgpeer) (fresh : Bool) :
    (peerEntry p fresh none).size = MNL_ATTR_HDRLEN + Nlattr.sizes (peerAttrs p fresh) := by
  simp [peerEntry]

@[simp] theorem size_peerEntry_some (p : Wgpeer) (fresh : Bool) (l : List Wgallowedip) :
    (peerEntry p fresh (some l)).size = (peerEntry p fresh none).size + MNL_ATTR_HDRLEN +
      Nlattr.sizes (l.map allowedipAttr) := by
  simp [peerEntry, Nat.add_assoc]

/-- What one run of the peer loop from `(len, peers, c)` guarantees about its result `o`. -/
structure PeerLoopSpec (cap len : Nat) (peers : List Wgpeer) (c : List Wgallowedip)
    (o : PeerLoopOut) : Prop where
  /-- The length follows what was put. -/
  len_eq : o.len = len + Nlattr.sizes o.entries
  /-- No checked put passes `cap`. -/
  len_le : len ≤ cap → o.len ≤ cap
  /-- The loop never goes back. -/
  suffix : o.peer <:+ peers
  /-- The cursors stay well formed. -/
  cursor : CursorOK o.peer o.allowedip
  /-- The entries put, followed by what is owed from the new cursors, are what was owed. -/
  emits : ∀ E, Emits o.peer o.allowedip E → Emits peers c (o.entries ++ E)
  /-- Nothing is sent twice. -/
  pending_le : pending o.peer o.allowedip ≤ pending peers c
  /-- Something is sent when the first entry fits. -/
  progress : peers ≠ [] → (∀ p ∈ peers.head?, len + (peerEntry p c.isEmpty none).size ≤ cap) →
    pending o.peer o.allowedip < pending peers c


/-- Where a peer's allowed-ips resume: `allowedip`, or the peer's first when it is `NULL`. -/
def resumeAt (p : Wgpeer) (c : List Wgallowedip) : List Wgallowedip :=
  if c.isEmpty then p.allowedips else c

theorem resumeAt_suffix {p : Wgpeer} {c : List Wgallowedip} (hc : c <:+ p.allowedips) :
    resumeAt p c <:+ p.allowedips := by
  unfold resumeAt
  split_ifs
  exacts [List.suffix_refl _, hc]

theorem emits_resumed {p : Wgpeer} {rest : List Wgpeer} {c : List Wgallowedip} {E : List Nlattr}
    (hc : c ≠ []) :
    Emits (p :: rest) c E ↔ ∃ es E', E = es ++ E' ∧ Continues p c es ∧ Emits rest [] E' := by
  cases c
  · exact absurd rfl hc
  · rfl

/-- An entry that carries the last of its peer's allowed-ips closes the peer's block. -/
theorem emits_close {p : Wgpeer} {rest : List Wgpeer} {c : List Wgallowedip}
    {ch : Option (List Wgallowedip)} {E : List Nlattr} (hch : resumeAt p c = ch.getD [])
    (hres : c ≠ [] → ∃ l, ch = some l ∧ l ≠ []) (h : Emits rest [] E) :
    Emits (p :: rest) c (peerEntry p c.isEmpty ch :: E) := by
  cases c with
  | nil => exact ⟨ch, [], [], E, rfl, by simpa [resumeAt] using hch, ⟨[], rfl, rfl, by simp⟩, h⟩
  | cons x xs =>
    obtain ⟨l, rfl, hl⟩ := hres (List.cons_ne_nil _ _)
    exact ⟨[peerEntry p false (some l)], E, rfl, ⟨[l], rfl, by simpa [resumeAt] using hch.symm,
      by simpa using hl⟩, h⟩

/-- An entry that leaves the allowed-ips `c'` of its peer to the next message. -/
theorem emits_split {p : Wgpeer} {rest : List Wgpeer} {c c' : List Wgallowedip}
    {ch : Option (List Wgallowedip)} {E : List Nlattr} (hc' : c' ≠ [])
    (hch : resumeAt p c = ch.getD [] ++ c') (hres : c ≠ [] → ∃ l, ch = some l ∧ l ≠ [])
    (h : Emits (p :: rest) c' E) :
    Emits (p :: rest) c (peerEntry p c.isEmpty ch :: E) := by
  obtain ⟨es, E', rfl, ⟨chunks, rfl, hjoin, hne⟩, hrest⟩ := (emits_resumed hc').1 h
  cases c with
  | nil =>
    exact ⟨ch, c', _, E', rfl, by simpa [resumeAt] using hch, ⟨chunks, rfl, hjoin, hne⟩, hrest⟩
  | cons x xs =>
    obtain ⟨l, rfl, hl⟩ := hres (List.cons_ne_nil _ _)
    refine ⟨peerEntry p false (some l) :: chunks.map _, E', rfl, ⟨l :: chunks, rfl, ?_, ?_⟩, hrest⟩
    · simpa [resumeAt, hjoin] using hch.symm
    · simpa [hl] using hne

theorem pendingAll_lt_pending (p : Wgpeer) (rest : List Wgpeer) (c : List Wgallowedip) :
    pendingAll rest < pending (p :: rest) c := by
  cases c <;> simp only [pending, List.isEmpty_nil, List.isEmpty_cons, List.length_cons,
    Bool.false_eq_true, if_true, if_false] <;> omega

theorem pending_split {p : Wgpeer} {rest : List Wgpeer} {c c' : List Wgallowedip}
    {ch : Option (List Wgallowedip)} (hc' : c' ≠ []) (hch : resumeAt p c = ch.getD [] ++ c')
    (hres : c ≠ [] → ∃ l, ch = some l ∧ l ≠ []) :
    pending (p :: rest) c' < pending (p :: rest) c := by
  have hlen := congrArg List.length hch
  cases c' with
  | nil => exact absurd rfl hc'
  | cons y ys =>
    cases c with
    | nil => simp [pending, resumeAt] at hlen ⊢; omega
    | cons x xs =>
      obtain ⟨l, rfl, hl⟩ := hres (List.cons_ne_nil _ _)
      have := List.length_pos.2 hl
      simp [pending, resumeAt] at hlen ⊢; omega

/-- The peer loop puts an entry that closes the first peer's block, then goes on. -/
theorem PeerLoopSpec.prepend {cap len len' : Nat} {p : Wgpeer} {rest : List Wgpeer}
    {c : List Wgallowedip} (e : Nlattr) {o : PeerLoopOut} (hlen : len' = len + e.size)
    (hfit : len' ≤ cap) (ho : PeerLoopSpec cap len' rest [] o)
    (hemit : ∀ E, Emits rest [] E → Emits (p :: rest) c (e :: E)) :
    PeerLoopSpec cap len (p :: rest) c ⟨e :: o.entries, o.len, o.peer, o.allowedip⟩ := by
  have hlt : pending o.peer o.allowedip < pending (p :: rest) c :=
    (pending_fresh rest ▸ ho.pending_le).trans_lt (pendingAll_lt_pending p rest c)
  exact ⟨by simp [ho.len_eq, hlen, Nat.add_assoc], fun _ => ho.len_le hfit,
    ho.suffix.trans (List.suffix_cons p rest), ho.cursor,
    fun E h => hemit _ (ho.emits E h), hlt.le, fun _ _ => hlt⟩


/-- A resumed peer that fits with one allowed-ip gets at least one. -/
theorem allowedipLoop_resumed_ne_nil {cap len : Nat} {p : Wgpeer} {rest : List Wgpeer}
    {c done : List Wgallowedip} (hcont : FitsCont cap len (p :: rest) c)
    (hprog : ∀ a ∈ (resumeAt p c).head?,
      len + (Nlattr.nest 0 (peerAttrs p c.isEmpty)).size + MNL_ATTR_HDRLEN + (allowedipAttr a).size ≤ cap →
        done ≠ []) :
    c ≠ [] → done ≠ [] := by
  cases c with
  | nil => exact fun h => absurd rfl h
  | cons x xs =>
    intro _
    have := hcont p rfl x rfl
    simp only [size_peerEntry_some, size_peerEntry_none, List.map_cons, List.map_nil,
      Nlattr.sizes_cons, Nlattr.sizes_nil] at this
    exact hprog x (by simp [resumeAt]) (by simp only [Nlattr.size_nest, List.isEmpty_cons]; omega)

/-- **The peer loop** keeps its length in step with what it put, stays within `cap`, leaves
well-formed cursors, puts exactly what the peers are owed up to the new cursors, and sends
something whenever the first entry fits. -/
theorem peerLoop_spec (cap len : Nat) (peers : List Wgpeer) (c : List Wgallowedip)
    (hcur : CursorOK peers c) (hcont : FitsCont cap len peers c) :
    PeerLoopSpec cap len peers c (peerLoop cap len peers c) := by
  induction peers generalizing len c with
  | nil =>
    exact ⟨by simp [peerLoop], id, List.suffix_refl _, fun _ h => (by cases h), fun E h => (by simpa [peerLoop] using h),
      le_rfl, fun h => absurd rfl h⟩
  | cons p rest ih =>
    have hc : c <:+ p.allowedips := hcur p rfl
    have ih' := fun len => ih len [] (fun _ _ => List.nil_suffix) (fun _ _ _ ha => by cases ha)
    rw [peerLoop, nestCheck_eq]
    by_cases hfit : len + (Nlattr.nest 0 (peerAttrs p c.isEmpty)).size ≤ cap
    swap
    · rw [if_neg hfit]
      exact ⟨by simp, id, List.suffix_refl _, hcur, fun E h => h, le_rfl,
        fun _ h => absurd (h p rfl) hfit⟩
    rw [if_pos hfit]
    dsimp only
    rcases hp : p.allowedips with _ | ⟨a, more⟩
    · -- no allowed-ips: the entry closes the block
      obtain rfl : c = [] := List.suffix_nil.1 (hp ▸ hc)
      exact PeerLoopSpec.prepend (peerEntry p true none) rfl hfit (ih' _)
        (fun E h => emits_close (by simp [resumeAt, hp]) (fun h => absurd rfl h) h)
    dsimp only
    have hres : (if c.isEmpty then a :: more else c) = resumeAt p c := by simp [resumeAt, hp]
    rw [hres]
    by_cases hn : len + (Nlattr.nest 0 (peerAttrs p c.isEmpty)).size + MNL_ATTR_HDRLEN ≤ cap
    swap
    · -- the allowed-ips nest does not fit, which only a fresh peer can meet
      rw [if_neg hn]
      cases c with
      | cons x xs =>
        have := hcont p rfl x rfl
        simp only [size_peerEntry_some, size_peerEntry_none, Nlattr.size_nest,
          List.isEmpty_cons] at this hn
        omega
      | nil =>
        have hne : resumeAt p [] ≠ [] := by simp [resumeAt, hp]
        have hc' : resumeAt p [] = none.getD [] ++ resumeAt p [] := rfl
        have hlt : pending (p :: rest) (resumeAt p []) < pending (p :: rest) [] :=
          pending_split hne hc' (fun h => absurd rfl h)
        exact ⟨by simp, fun _ => hfit, List.suffix_refl _,
          fun q hq => by cases hq; exact resumeAt_suffix hc,
          fun E h => emits_split hne hc' (fun h => absurd rfl h) h, hlt.le, fun _ _ => hlt⟩
    rw [if_pos hn]
    obtain ⟨done, hsplit, hes, hlen, hle, hprog⟩ := allowedipLoop_spec cap
      (len + (Nlattr.nest 0 (peerAttrs p c.isEmpty)).size + MNL_ATTR_HDRLEN) (resumeAt p c)
    have hdone := allowedipLoop_resumed_ne_nil hcont hprog
    have hsome : c ≠ [] → ∃ l, some done = some l ∧ l ≠ [] := fun h => ⟨done, rfl, hdone h⟩
    generalize allowedipLoop cap (len + (Nlattr.nest 0 (peerAttrs p c.isEmpty)).size +
      MNL_ATTR_HDRLEN) (resumeAt p c) = r at hsplit hes hlen hle ⊢
    rw [hes]
    rcases hst : r.allowedip with _ | ⟨s, ss⟩
    · -- the allowed-ips ran out: the entry closes the block
      rw [hst, List.append_nil] at hsplit
      exact PeerLoopSpec.prepend (peerEntry p c.isEmpty (some done))
        (by simp [hlen, Nat.add_assoc]) (hle hn) (ih' _) (fun E h => emits_close hsplit hsome h)
    · -- allowed-ips are left: the next message resumes this peer
      rw [hst] at hsplit
      have hsplit' : resumeAt p c = (some done).getD [] ++ s :: ss := hsplit
      have hlt : pending (p :: rest) (s :: ss) < pending (p :: rest) c :=
        pending_split (List.cons_ne_nil s ss) hsplit' hsome
      dsimp only
      exact ⟨by simp [hlen, Nat.add_assoc], fun _ => hle hn, List.suffix_refl _,
        fun q hq => by cases hq; exact (List.suffix_append done _).trans (hsplit ▸ resumeAt_suffix hc),
        fun E h => emits_split (List.cons_ne_nil s ss) hsplit' hsome h, hlt.le, fun _ _ => hlt⟩

/-! ### The capacity the code needs

The specification's bound is the first message of a device with every device-level attribute and
a single peer with every optional field and one `AF_INET6` allowed-ip.  Every message fits
its unchecked part and the first peer entry in that room, so each message sends something.
-/

/-- The first message of a device with every device-level attribute and one peer with every
optional field and one `AF_INET6` allowed-ip. -/
def fullMessage (name : IfName) : List Nlattr :=
  [.strz WGDEVICE_A_IFNAME name.chars,
   .attr WGDEVICE_A_PRIVATE_KEY (Bytes.zero WG_KEY_LEN).data,
   .u16 WGDEVICE_A_LISTEN_PORT 0, .u32 WGDEVICE_A_FWMARK 0, .u32 WGDEVICE_A_FLAGS 0,
   .nest WGDEVICE_A_PEERS [.nest 0
     [.attr WGPEER_A_PUBLIC_KEY (Bytes.zero WG_KEY_LEN).data,
      .attr WGPEER_A_PRESHARED_KEY (Bytes.zero WG_KEY_LEN).data,
      .attr WGPEER_A_ENDPOINT (Bytes.zero SOCKADDR_IN6_LEN).data,
      .u16 WGPEER_A_PERSISTENT_KEEPALIVE_INTERVAL 0, .u32 WGPEER_A_FLAGS 0,
      .nest WGPEER_A_ALLOWEDIPS [.nest 0
        [.u16 WGALLOWEDIP_A_FAMILY 0, .attr WGALLOWEDIP_A_IPADDR (Bytes.zero 16).data,
         .u8 WGALLOWEDIP_A_CIDR_MASK 0]]]]]

/-- The smallest capacity the specification allows for a device of this name. -/
def capacityBound (name : IfName) : Nat := msgLen (fullMessage name)

theorem capacityBound_eq (name : IfName) :
    capacityBound name = (Nlattr.strz WGDEVICE_A_IFNAME name.chars).size + 252 := by
  simp [capacityBound, fullMessage, msgLen, PREPARED_LEN, Nlattr.u16, Nlattr.u32, Nlattr.u8,
    Bytes.zero, mnlAlign, MNL_ATTR_HDRLEN, MNL_NLMSG_HDRLEN, GENL_HDRLEN, WG_KEY_LEN,
    SOCKADDR_IN6_LEN]
  omega

theorem sizes_ite_le (c : Prop) [Decidable c] (l : List Nlattr) :
    Nlattr.sizes (if c then l else []) ≤ Nlattr.sizes l := by
  split <;> simp

theorem sizes_deviceAttrs_le (dev : Wgdevice) : Nlattr.sizes (deviceAttrs dev) ≤ 60 := by
  have h1 := sizes_ite_le dev.flags.hasPrivateKey [.attr WGDEVICE_A_PRIVATE_KEY dev.privateKey.data]
  have h2 := sizes_ite_le dev.flags.hasListenPort [.u16 WGDEVICE_A_LISTEN_PORT dev.listenPort]
  have h3 := sizes_ite_le dev.flags.hasFwmark [.u32 WGDEVICE_A_FWMARK dev.fwmark]
  have h4 := sizes_ite_le dev.flags.replacePeers
    [.u32 WGDEVICE_A_FLAGS (UInt32.ofNat WGDEVICE_F_REPLACE_PEERS)]
  simp only [deviceAttrs, Nlattr.sizes_append]
  simp [Nlattr.u16, Nlattr.u32, mnlAlign, MNL_ATTR_HDRLEN, WG_KEY_LEN] at h1 h2 h3 h4 ⊢
  omega

theorem sizes_endpointAttr_le (p : Wgpeer) : Nlattr.sizes (endpointAttr p) ≤ 32 := by
  unfold endpointAttr
  split_ifs <;> simp [mnlAlign, MNL_ATTR_HDRLEN, SOCKADDR_IN_LEN, SOCKADDR_IN6_LEN]

theorem size_peerEntry_none_le (p : Wgpeer) (fresh : Bool) :
    (peerEntry p fresh none).size ≤ 124 := by
  have h1 := sizes_ite_le p.flags.hasPresharedKey
    [.attr WGPEER_A_PRESHARED_KEY p.presharedKey.data]
  have h2 := sizes_endpointAttr_le p
  have h3 := sizes_ite_le p.flags.hasPersistentKeepaliveInterval
    [.u16 WGPEER_A_PERSISTENT_KEEPALIVE_INTERVAL p.persistentKeepaliveInterval]
  have h4 := sizes_ite_le (peerFlagsWord p fresh ≠ 0)
    [.u32 WGPEER_A_FLAGS (UInt32.ofNat (peerFlagsWord p fresh))]
  have h5 := sizes_ite_le (fresh = true)
    ((if p.flags.hasPresharedKey then [.attr WGPEER_A_PRESHARED_KEY p.presharedKey.data] else []) ++
      endpointAttr p ++ (if p.flags.hasPersistentKeepaliveInterval then
        [.u16 WGPEER_A_PERSISTENT_KEEPALIVE_INTERVAL p.persistentKeepaliveInterval] else []))
  simp only [size_peerEntry_none, peerAttrs, Nlattr.sizes_append] at h5 ⊢
  simp [Nlattr.u16, Nlattr.u32, mnlAlign, MNL_ATTR_HDRLEN, WG_KEY_LEN] at h1 h3 h4 h5 ⊢
  omega

theorem size_allowedipAttr_le (a : Wgallowedip) : (allowedipAttr a).size ≤ 40 := by
  simp only [allowedipAttr, allowedipAttrs, Nlattr.size_nest, Nlattr.sizes_append]
  split_ifs <;> simp [Nlattr.u16, Nlattr.u8, mnlAlign, MNL_ATTR_HDRLEN]


/-- After the unchecked part of any message there is room for any peer entry with one
allowed-ip. -/
theorem startLen_fits {cap : Nat} {dev : Wgdevice} (hcap : capacityBound dev.name ≤ cap)
    (first : Bool) (p : Wgpeer) (fresh : Bool) (a : Wgallowedip) :
    msgLen ([Nlattr.strz WGDEVICE_A_IFNAME dev.name.chars] ++
      (if first then deviceAttrs dev else [])) + MNL_ATTR_HDRLEN +
      (peerEntry p fresh (some [a])).size ≤ cap := by
  have h1 := sizes_ite_le (first = true) (deviceAttrs dev)
  have h2 := sizes_deviceAttrs_le dev
  have h3 := size_peerEntry_none_le p fresh
  have h4 := size_allowedipAttr_le a
  rw [capacityBound_eq] at hcap
  simp only [msgLen, PREPARED_LEN, Nlattr.sizes_append, Nlattr.sizes_cons, Nlattr.sizes_nil,
    size_peerEntry_some, List.map_cons, List.map_nil] at h1 ⊢
  simp only [MNL_NLMSG_HDRLEN, GENL_HDRLEN, MNL_ATTR_HDRLEN] at h1 h3 hcap ⊢
  omega

/-! ### One message -/

/-- The first attribute of type `t` in a run, as a decoder walking it meets it. -/
def findAttr (as : List Nlattr) (t : Nat) : Option Nlattr := as.find? (·.type == t)

/-- The peer entries of a message: what its `WGDEVICE_A_PEERS` nest holds. -/
def msgPeers (m : List Nlattr) : List Nlattr :=
  ((findAttr m WGDEVICE_A_PEERS).map Nlattr.nested).getD []

theorem find?_ite {α : Type} (c : Prop) [Decidable c] (l₁ l₂ : List α) (q : α → Bool) :
    (if c then l₁ else l₂).find? q = if c then l₁.find? q else l₂.find? q := by
  split <;> rfl

theorem findAttr_deviceAttrs_peers (dev : Wgdevice) :
    findAttr (deviceAttrs dev) WGDEVICE_A_PEERS = none := by
  simp [findAttr, deviceAttrs, find?_ite, Nlattr.u16, Nlattr.u32, WGDEVICE_A_PRIVATE_KEY,
    WGDEVICE_A_LISTEN_PORT, WGDEVICE_A_FWMARK, WGDEVICE_A_FLAGS, WGDEVICE_A_PEERS]

theorem msgPeers_eq (dev : Wgdevice) (first none : Bool) (es : List Nlattr) :
    msgPeers ([.strz WGDEVICE_A_IFNAME dev.name.chars] ++ (if first then deviceAttrs dev else []) ++
      (if none then [] else [.nest WGDEVICE_A_PEERS es])) = if none then [] else es := by
  have h := findAttr_deviceAttrs_peers dev
  have hifname : (WGDEVICE_A_IFNAME == WGDEVICE_A_PEERS) = false := rfl
  unfold findAttr at h
  cases first <;> cases none <;> simp [msgPeers, findAttr, List.find?_append, h, hifname, Nlattr.strz]


/-- What one message guarantees when its peer loop begins at `start` with cursor `c`, its
peers nest holding `es`. -/
structure MessageSpec (cap : Nat) (dev : Wgdevice) (start : List Wgpeer) (c : List Wgallowedip)
    (es : List Nlattr) (r : MessageOut) : Prop where
  /-- The message fits. -/
  len_le : msgLen r.msg ≤ cap
  /-- The next message resumes at a peer of the device. -/
  suffix : r.peer <:+ dev.peers
  /-- The cursors stay well formed. -/
  cursor : CursorOK r.peer r.allowedip
  /-- The peers nest, then what is owed from the new cursors, is what was owed. -/
  emits : ∀ E, Emits r.peer r.allowedip E → Emits start c (es ++ E)
  /-- Something is sent. -/
  progress : start ≠ [] → pending r.peer r.allowedip < pending start c

/-- **One message** holds the interface name, the device-level attributes when it is the
first, and the peers nest when the device has peers. -/
theorem buildMessage_spec {cap : Nat} {dev : Wgdevice} (hcap : capacityBound dev.name ≤ cap)
    {peer : List Wgpeer} {c : List Wgallowedip} (hsuf : peer <:+ dev.peers)
    (hcur : CursorOK (if peer.isEmpty then dev.peers else peer) c) :
    ∃ es, (buildMessage cap dev peer c).msg = [.strz WGDEVICE_A_IFNAME dev.name.chars] ++
        (if peer.isEmpty then deviceAttrs dev else []) ++
        (if dev.peers.isEmpty then [] else [.nest WGDEVICE_A_PEERS es]) ∧
      msgPeers (buildMessage cap dev peer c).msg = es ∧
      MessageSpec cap dev (if peer.isEmpty then dev.peers else peer) c es
        (buildMessage cap dev peer c) := by
  have htop := startLen_fits hcap peer.isEmpty
  unfold buildMessage
  rcases hd : dev.peers with _ | ⟨q, qs⟩
  · obtain rfl : peer = [] := List.suffix_nil.1 (hd ▸ hsuf)
    have := htop Wgpeer.zero false Wgallowedip.zero
    refine ⟨[], by simp, by simpa using msgPeers_eq dev true true [],
      ⟨(by simp only [List.append_nil]; omega), List.nil_suffix,
      fun _ h => (by cases h), fun E h => ?_, fun h => absurd rfl h⟩⟩
    simpa [Emits] using h
  rw [hd] at hsuf hcur
  dsimp only
  have hstart : (if peer.isEmpty then q :: qs else peer) ≠ [] := by
    split_ifs with h
    · exact List.cons_ne_nil _ _
    · simpa using h
  have hsuf' : (if peer.isEmpty then q :: qs else peer) <:+ q :: qs := by
    split_ifs
    exacts [List.suffix_refl _, hsuf]
  have ho := peerLoop_spec cap _ _ c hcur (fun p _ a _ => htop p false a)
  refine ⟨_, by simp, by simpa using msgPeers_eq dev peer.isEmpty false _, ⟨?_, ho.suffix.trans (by rw [hd]; exact hsuf'), ho.cursor, ho.emits,
    fun h => ho.progress h ?_⟩⟩
  · have := ho.len_le (le_trans (Nat.le_add_right _ _) (htop q false Wgallowedip.zero))
    rw [ho.len_eq] at this
    simpa [msgLen, Nat.add_assoc] using this
  · intro p _
    have := htop p c.isEmpty Wgallowedip.zero
    simp only [size_peerEntry_some] at this
    omega

/-! ### The message loop -/

/-- **The message loop** from a resumed cursor: with one unit of fuel per unit still to
send, every message is acknowledged and the loop stops with `ret = 0`; each message holds
the interface name and the peers nest only, and fits. -/
theorem setLoop_spec {cap : Nat} {dev : Wgdevice} (hcap : capacityBound dev.name ≤ cap)
    (n : Nat) : ∀ peer c, peer ≠ [] → peer <:+ dev.peers → CursorOK peer c → pending peer c < n →
    ∃ msgs, (∀ fuel, n ≤ fuel → setLoop cap dev fuel [] peer c = some (msgs, 0)) ∧
      (∀ m ∈ msgs, msgLen m ≤ cap ∧
        ∃ es, m = [.strz WGDEVICE_A_IFNAME dev.name.chars, .nest WGDEVICE_A_PEERS es]) ∧
      Emits peer c (msgs.flatMap msgPeers) := by
  induction n with
  | zero => intro _ _ _ _ _ h; omega
  | succ n ih =>
    intro peer c hne hsuf hcur hlt
    have hempty : peer.isEmpty = false := by simpa using hne
    have hd : dev.peers ≠ [] := fun h => hne (List.suffix_nil.1 (h ▸ hsuf))
    replace hd : dev.peers.isEmpty = false := by simpa using hd
    obtain ⟨es, hmsg, hpeers, hspec⟩ := buildMessage_spec hcap hsuf (by simpa [hempty] using hcur)
    simp only [hempty, hd, Bool.false_eq_true, if_false, List.append_nil] at hmsg hspec
    have hm : (buildMessage cap dev peer c).msg =
        [.strz WGDEVICE_A_IFNAME dev.name.chars, .nest WGDEVICE_A_PEERS es] := hmsg
    by_cases hdone : (buildMessage cap dev peer c).peer = []
    · refine ⟨[(buildMessage cap dev peer c).msg], fun fuel hf => ?_, ?_, ?_⟩
      · obtain ⟨f, rfl⟩ : ∃ f, fuel = f + 1 := ⟨fuel - 1, by omega⟩
        simp [setLoop, hdone]
      · simpa using ⟨hspec.len_le, es, hm⟩
      · have := hspec.emits [] (by rw [hdone]; rfl)
        simpa [hpeers] using this
    · obtain ⟨msgs, hrun, hms, hemit⟩ := ih _ _ hdone hspec.suffix hspec.cursor
        (by have := hspec.progress hne; omega)
      refine ⟨(buildMessage cap dev peer c).msg :: msgs, fun fuel hf => ?_, ?_, ?_⟩
      · obtain ⟨f, rfl⟩ : ∃ f, fuel = f + 1 := ⟨fuel - 1, by omega⟩
        simp [setLoop, hdone, hrun f (by omega)]
      · exact List.forall_mem_cons.2 ⟨⟨hspec.len_le, es, hm⟩, hms⟩
      · simpa [hpeers] using hspec.emits _ hemit


/-- **`kernel_set_device`, message by message.**  With a capacity of at least the specification's
bound, every send acknowledged, and one unit of fuel more than the peers and allowed-ips to
send, the code returns `0` after a first message holding the name, the device-level
attributes and the peers nest, and then messages holding the name and the peers nest only;
every message fits, and the peers nests carry what the peers are owed. -/
theorem kernelSetDevice_spec {cap : Nat} {dev : Wgdevice} (hcap : capacityBound dev.name ≤ cap) :
    ∃ m₁ rest, (∀ fuel, pendingAll dev.peers < fuel →
        kernelSetDevice cap none [] dev fuel = some (m₁ :: rest, 0)) ∧
      (∃ es, m₁ = [.strz WGDEVICE_A_IFNAME dev.name.chars] ++ deviceAttrs dev ++
        (if dev.peers.isEmpty then [] else [.nest WGDEVICE_A_PEERS es])) ∧
      msgLen m₁ ≤ cap ∧
      (∀ m ∈ rest, msgLen m ≤ cap ∧
        ∃ es, m = [.strz WGDEVICE_A_IFNAME dev.name.chars, .nest WGDEVICE_A_PEERS es]) ∧
      Emits dev.peers [] ((m₁ :: rest).flatMap msgPeers) := by
  have hcur : CursorOK (if ([] : List Wgpeer).isEmpty then dev.peers else []) [] :=
    fun _ _ => List.nil_suffix
  obtain ⟨es, hmsg, hpeers, hspec⟩ := buildMessage_spec hcap List.nil_suffix hcur
  simp only [List.isEmpty_nil, if_true] at hmsg hspec
  by_cases hdone : (buildMessage cap dev [] []).peer = []
  · refine ⟨_, [], fun fuel hf => ?_, ⟨es, hmsg⟩, hspec.len_le, by simp, ?_⟩
    · obtain ⟨f, rfl⟩ : ∃ f, fuel = f + 1 := ⟨fuel - 1, by omega⟩
      simp [kernelSetDevice, setLoop, hdone]
    · have := hspec.emits [] (by rw [hdone]; rfl)
      simpa [hpeers] using this
  · have hne : dev.peers ≠ [] := fun h => hdone (List.suffix_nil.1 (h ▸ hspec.suffix))
    obtain ⟨msgs, hrun, hms, hemit⟩ := setLoop_spec hcap (pendingAll dev.peers) _ _ hdone
      hspec.suffix hspec.cursor (by simpa [pending_fresh] using hspec.progress hne)
    refine ⟨_, msgs, fun fuel hf => ?_, ⟨es, hmsg⟩, hspec.len_le, hms, ?_⟩
    · obtain ⟨f, rfl⟩ : ∃ f, fuel = f + 1 := ⟨fuel - 1, by omega⟩
      simp [kernelSetDevice, setLoop, hdone, hrun f (by omega)]
    · simpa [hpeers] using hspec.emits _ hemit


/-- The send loop never returns a positive value. -/
theorem setLoop_result {cap : Nat} {dev : Wgdevice} : ∀ (fuel : Nat) (outs : List SendOutcome)
    (peer : List Wgpeer) (allowedip : List Wgallowedip) {msgs : List (List Nlattr)} {ret : Int},
    setLoop cap dev fuel outs peer allowedip = some (msgs, ret) → ret ≤ 0
  | 0, _, _, _, _, _, h => by cases h
  | fuel + 1, outs, peer, allowedip, msgs, ret, h => by
    simp only [setLoop] at h
    split at h
    · obtain ⟨-, rfl⟩ := Prod.mk.inj (Option.some.inj h)
      omega
    · obtain ⟨-, rfl⟩ := Prod.mk.inj (Option.some.inj h)
      split_ifs <;> simp [EINVAL]
    · split_ifs at h
      · obtain ⟨-, rfl⟩ := Prod.mk.inj (Option.some.inj h)
        exact le_refl 0
      · obtain ⟨⟨msgs', ret'⟩, hrun, heq⟩ := Option.map_eq_some'.mp h
        obtain ⟨-, rfl⟩ := Prod.mk.inj heq
        exact setLoop_result fuel _ _ _ hrun

/-- Whatever the kernel answers each send with, the loop gives an answer wherever it gives one
with every send acknowledged: a failure only ends it sooner. -/
theorem setLoop_isSome {cap : Nat} {dev : Wgdevice} : ∀ (fuel : Nat) (outs : List SendOutcome)
    (peer : List Wgpeer) (allowedip : List Wgallowedip),
    (setLoop cap dev fuel [] peer allowedip).isSome → (setLoop cap dev fuel outs peer allowedip).isSome
  | 0, _, _, _, h => h
  | _ + 1, .sendFails _ :: _, _, _, _ => rfl
  | _ + 1, .recvFails _ :: _, _, _, _ => rfl
  | _ + 1, [], _, _, h => h
  | fuel + 1, .acked :: outs, peer, allowedip, h => by
    simp only [setLoop, List.tail_cons, List.tail_nil] at h ⊢
    split_ifs at h ⊢
    · rfl
    · simpa using setLoop_isSome fuel outs _ _ (by simpa using h)

/-- **`kernel_set_device` always answers** once the buffer holds a message header and the
fuel covers the peers still to send, whatever the open and each send meet. -/
theorem kernelSetDevice_isSome {cap : Nat} {dev : Wgdevice} (hcap : capacityBound dev.name ≤ cap)
    (openErrno : Option Nat) (outs : List SendOutcome) {fuel : Nat}
    (hfuel : pendingAll dev.peers < fuel) : (kernelSetDevice cap openErrno outs dev fuel).isSome := by
  cases openErrno with
  | some _ => rfl
  | none =>
    obtain ⟨_, _, hrun, -⟩ := kernelSetDevice_spec hcap
    exact setLoop_isSome fuel outs [] [] (by rw [← kernelSetDevice, hrun fuel hfuel]; rfl)

/-! ### What the messages carry, as a reader of them finds it

The specification speaks of what the messages carry, not of how they are built: which attributes
are present, with which payload, and which flag bits are set.  These are read with
`findAttr`, as `mnl_attr_parse` meets them.
-/

/-- The `WGPEER_A_FLAGS` word of a peer entry, `0` when absent. -/
def entryFlags (e : Nlattr) : Nat := ((findAttr e.nested WGPEER_A_FLAGS).map (·.getNum 4)).getD 0

/-- The allowed-ip nests of a peer entry. -/
def entryAllowedips (e : Nlattr) : List Nlattr :=
  ((findAttr e.nested WGPEER_A_ALLOWEDIPS).map Nlattr.nested).getD []

/-- The device-level attributes of a message, each present exactly as the device's flags
say, with the device's value. -/
def DeviceAttrsOK (dev : Wgdevice) (m : List Nlattr) : Prop :=
  findAttr m WGDEVICE_A_PRIVATE_KEY = (if dev.flags.hasPrivateKey then
    some (.attr WGDEVICE_A_PRIVATE_KEY dev.privateKey.data) else none) ∧
  findAttr m WGDEVICE_A_LISTEN_PORT = (if dev.flags.hasListenPort then
    some (.u16 WGDEVICE_A_LISTEN_PORT dev.listenPort) else none) ∧
  findAttr m WGDEVICE_A_FWMARK = (if dev.flags.hasFwmark then
    some (.u32 WGDEVICE_A_FWMARK dev.fwmark) else none) ∧
  findAttr m WGDEVICE_A_FLAGS = (if dev.flags.replacePeers then
    some (.u32 WGDEVICE_A_FLAGS (UInt32.ofNat WGDEVICE_F_REPLACE_PEERS)) else none)

/-- A message with no device-level attribute. -/
def NoDeviceAttrs (m : List Nlattr) : Prop :=
  ∀ a ∈ m, a.type ∉ [WGDEVICE_A_PRIVATE_KEY, WGDEVICE_A_LISTEN_PORT, WGDEVICE_A_FWMARK,
    WGDEVICE_A_FLAGS]

/-- Every entry of a peer names the peer by its key and carries `WGPEER_F_REMOVE_ME` exactly
when the peer is to be removed. -/
def EntryOK (p : Wgpeer) (e : Nlattr) : Prop :=
  findAttr e.nested WGPEER_A_PUBLIC_KEY = some (.attr WGPEER_A_PUBLIC_KEY p.publicKey.data) ∧
  (entryFlags e).testBit 0 = p.flags.removeMe

/-- The fields only a peer's first entry may carry: present in it (`first`) exactly as the
peer says, absent from the others. -/
def FirstFields (p : Wgpeer) (first : Bool) (e : Nlattr) : Prop :=
  findAttr e.nested WGPEER_A_PRESHARED_KEY = (if first && p.flags.hasPresharedKey then
    some (.attr WGPEER_A_PRESHARED_KEY p.presharedKey.data) else none) ∧
  findAttr e.nested WGPEER_A_ENDPOINT =
    (if first then p.endpoint.addr.map (.attr WGPEER_A_ENDPOINT) else none) ∧
  findAttr e.nested WGPEER_A_PERSISTENT_KEEPALIVE_INTERVAL =
    (if first && p.flags.hasPersistentKeepaliveInterval then
      some (.u16 WGPEER_A_PERSISTENT_KEEPALIVE_INTERVAL p.persistentKeepaliveInterval) else none) ∧
  (entryFlags e).testBit 1 = (first && p.flags.replaceAllowedips)

/-- The entries one peer gets over all the messages. -/
structure PeerBlock (p : Wgpeer) (b : List Nlattr) : Prop where
  /-- Each names the peer and carries its removal bit. -/
  entries : ∀ e ∈ b, EntryOK p e
  /-- There is a first, and only it carries the first-entry fields. -/
  first : ∃ e es, b = e :: es ∧ FirstFields p true e ∧ ∀ x ∈ es, FirstFields p false x
  /-- Together they carry the peer's allowed-ips, in order, each once. -/
  allowedips : b.flatMap entryAllowedips = p.allowedips.map allowedipAttr

theorem find?_endpointAttr (p : Wgpeer) (t : Nat) :
    (endpointAttr p).find? (·.type == t) =
      if t = WGPEER_A_ENDPOINT then p.endpoint.addr.map (.attr WGPEER_A_ENDPOINT) else none := by
  unfold endpointAttr Endpoint.addr
  split_ifs <;> simp_all [@eq_comm _ WGPEER_A_ENDPOINT]

theorem peerFlagsWord_le (p : Wgpeer) (fresh : Bool) : peerFlagsWord p fresh ≤ 3 := by
  unfold peerFlagsWord
  cases p.flags.removeMe <;> cases fresh && p.flags.replaceAllowedips <;> decide

theorem testBit_peerFlagsWord_zero (p : Wgpeer) (fresh : Bool) :
    (peerFlagsWord p fresh).testBit 0 = p.flags.removeMe := by
  unfold peerFlagsWord
  cases p.flags.removeMe <;> cases fresh && p.flags.replaceAllowedips <;> decide

theorem testBit_peerFlagsWord_one (p : Wgpeer) (fresh : Bool) :
    (peerFlagsWord p fresh).testBit 1 = (fresh && p.flags.replaceAllowedips) := by
  unfold peerFlagsWord
  cases p.flags.removeMe <;> cases fresh && p.flags.replaceAllowedips <;> decide

theorem entryFlags_peerEntry (p : Wgpeer) (fresh : Bool) (ch : Option (List Wgallowedip)) :
    entryFlags (peerEntry p fresh ch) = peerFlagsWord p fresh := by
  have hlt : peerFlagsWord p fresh < UInt32.size := by
    have := peerFlagsWord_le p fresh; simp [UInt32.size]; omega
  cases ch <;> by_cases h : peerFlagsWord p fresh = 0 <;>
    simp [entryFlags, findAttr, peerEntry, peerAttrs, List.find?_append, find?_ite,
      find?_endpointAttr, h, UInt32.toNat_ofNat_of_lt hlt, WGPEER_A_FLAGS, WGPEER_A_PUBLIC_KEY,
      WGPEER_A_PRESHARED_KEY, WGPEER_A_PERSISTENT_KEEPALIVE_INTERVAL, WGPEER_A_ENDPOINT,
      WGPEER_A_ALLOWEDIPS]

theorem entryOK_peerEntry (p : Wgpeer) (fresh : Bool) (ch : Option (List Wgallowedip)) :
    EntryOK p (peerEntry p fresh ch) := by
  refine ⟨?_, by rw [entryFlags_peerEntry, testBit_peerFlagsWord_zero]⟩
  cases ch <;> simp [findAttr, peerEntry, peerAttrs]

theorem firstFields_peerEntry (p : Wgpeer) (fresh : Bool) (ch : Option (List Wgallowedip)) :
    FirstFields p fresh (peerEntry p fresh ch) := by
  refine ⟨?_, ?_, ?_, by rw [entryFlags_peerEntry, testBit_peerFlagsWord_one]⟩ <;>
  cases ch <;> cases fresh <;>
    simp [findAttr, peerEntry, peerAttrs, List.find?_append, find?_ite, find?_endpointAttr,
      WGPEER_A_FLAGS, WGPEER_A_PUBLIC_KEY, WGPEER_A_PRESHARED_KEY,
      WGPEER_A_PERSISTENT_KEEPALIVE_INTERVAL, WGPEER_A_ENDPOINT, WGPEER_A_ALLOWEDIPS]

theorem entryAllowedips_peerEntry (p : Wgpeer) (fresh : Bool) (ch : Option (List Wgallowedip)) :
    entryAllowedips (peerEntry p fresh ch) = (ch.getD []).map allowedipAttr := by
  cases ch <;>
    simp [entryAllowedips, findAttr, peerEntry, peerAttrs, List.find?_append, find?_ite,
      find?_endpointAttr, WGPEER_A_FLAGS, WGPEER_A_PUBLIC_KEY, WGPEER_A_PRESHARED_KEY,
      WGPEER_A_PERSISTENT_KEEPALIVE_INTERVAL, WGPEER_A_ENDPOINT, WGPEER_A_ALLOWEDIPS]

/-- The entries one peer gets, as the code builds them: a fresh entry, then entries that
resume the peer with at least one allowed-ip each; together they carry the peer's
allowed-ips in order. -/
def ExactBlock (p : Wgpeer) (b : List Nlattr) : Prop :=
  ∃ (ch : Option (List Wgallowedip)) (chunks : List (List Wgallowedip)), b = peerEntry p true ch :: chunks.map (fun l => peerEntry p false (some l)) ∧
    p.allowedips = ch.getD [] ++ chunks.flatten ∧ ∀ l ∈ chunks, l ≠ []

/-- What is owed to fresh peers is one block per peer, in order. -/
theorem emits_exactBlocks : ∀ (peers : List Wgpeer) (E : List Nlattr), Emits peers [] E →
    ∃ blocks, E = blocks.flatten ∧ List.Forall₂ ExactBlock peers blocks
  | [], E, h => ⟨[], h, List.Forall₂.nil⟩
  | p :: rest, _, h => by
    obtain ⟨ch, _, _, E', rfl, hsplit, ⟨chunks, rfl, rfl, hne⟩, hrest⟩ := h
    obtain ⟨blocks, rfl, hblocks⟩ := emits_exactBlocks rest E' hrest
    exact ⟨_ :: blocks, by simp, List.Forall₂.cons ⟨ch, chunks, rfl, hsplit, hne⟩ hblocks⟩

theorem peerBlock_of_exactBlock {p : Wgpeer} {b : List Nlattr} (h : ExactBlock p b) :
    PeerBlock p b := by
  obtain ⟨ch, chunks, rfl, hsplit, -⟩ := h
  refine ⟨?_, ⟨_, _, rfl, firstFields_peerEntry p true ch,
    by simpa using fun l _ => firstFields_peerEntry p false (some l)⟩, ?_⟩
  · simpa using ⟨entryOK_peerEntry p true ch, fun l _ => entryOK_peerEntry p false (some l)⟩
  · simp [hsplit, entryAllowedips_peerEntry, List.flatMap, List.map_flatten, Function.comp_def]

theorem deviceAttrsOK_first (dev : Wgdevice) (none : Bool) (es : List Nlattr) :
    DeviceAttrsOK dev ([.strz WGDEVICE_A_IFNAME dev.name.chars] ++ deviceAttrs dev ++
      (if none then [] else [.nest WGDEVICE_A_PEERS es])) := by
  cases none <;>
    simp [DeviceAttrsOK, findAttr, deviceAttrs, List.find?_append, find?_ite,
      WGDEVICE_A_IFNAME, WGDEVICE_A_PRIVATE_KEY, WGDEVICE_A_LISTEN_PORT, WGDEVICE_A_FWMARK,
      WGDEVICE_A_FLAGS, WGDEVICE_A_PEERS]

/-- What the specification asks of the messages `msgs` sent for `dev`. -/
structure Chunking (dev : Wgdevice) (cap : Nat) (msgs : List (List Nlattr)) : Prop where
  /-- Every message fits. -/
  fits : ∀ m ∈ msgs, msgLen m ≤ cap
  /-- The device-level attributes are in the first message, as flagged, and in no other. -/
  device : ∃ m₁ rest, msgs = m₁ :: rest ∧ DeviceAttrsOK dev m₁ ∧ ∀ m ∈ rest, NoDeviceAttrs m
  /-- The peer entries, in order, are one block per peer of the device. -/
  peers : ∃ blocks, msgs.flatMap msgPeers = blocks.flatten ∧ List.Forall₂ PeerBlock dev.peers blocks

/-- **Chunking of `kernel_set_device`.** For every device and every capacity of at least the
specification's bound, with every message acknowledged, the loop stops with `ret = 0` (any fuel
above the number of peers and allowed-ips suffices), and its messages are as `Chunking`
says. -/
theorem kernelSetDevice_chunks (dev : Wgdevice) (cap : Nat) (hcap : capacityBound dev.name ≤ cap) :
    ∃ msgs, (∀ fuel, pendingAll dev.peers < fuel →
        kernelSetDevice cap none [] dev fuel = some (msgs, 0)) ∧ Chunking dev cap msgs := by
  obtain ⟨m₁, rest, hrun, ⟨es, rfl⟩, hlen₁, hrest, hemit⟩ := kernelSetDevice_spec hcap
  refine ⟨_, hrun, List.forall_mem_cons.2 ⟨hlen₁, fun m hm => (hrest m hm).1⟩,
    ⟨_, rest, rfl, deviceAttrsOK_first dev _ es, fun m hm => ?_⟩,
    (emits_exactBlocks _ _ hemit).imp fun _ h => ⟨h.1, h.2.imp fun _ _ => peerBlock_of_exactBlock⟩⟩
  obtain ⟨-, es', rfl⟩ := hrest m hm
  simp [NoDeviceAttrs, WGDEVICE_A_IFNAME, WGDEVICE_A_PRIVATE_KEY, WGDEVICE_A_LISTEN_PORT,
    WGDEVICE_A_FWMARK, WGDEVICE_A_FLAGS, WGDEVICE_A_PEERS]

/-- The interface `wg0`. -/
def wg0 : IfName := ⟨[0x77, 0x67, 0x30], by decide, by decide⟩

/-- The allowed-ip `10.0.0.n/32`. -/
def v4Host (n : UInt8) : Wgallowedip := ⟨2, ⟨[10, 0, 0, n] ++ List.replicate 12 0, by simp⟩, 32⟩

/-- The allowed-ip `fd00::n/128`. -/
def v6Host (n : UInt8) : Wgallowedip := ⟨10, ⟨[0xfd] ++ List.replicate 14 0 ++ [n], by simp⟩, 128⟩

/-- `wg0` with a listen port and `WGDEVICE_F_REPLACE_PEERS`, and two peers: the first with a
preshared key, an IPv4 endpoint, a keepalive interval, `WGPEER_F_REPLACE_ALLOWEDIPS` and four
allowed-ips, the second to be removed, with one allowed-ip. -/
def twoPeerDevice : Wgdevice :=
  { Wgdevice.zero with
    name := wg0
    flags := { replacePeers := true, hasListenPort := true }
    listenPort := 51820
    peers := [
      { Wgpeer.zero with
        flags := { replaceAllowedips := true, hasPublicKey := true, hasPresharedKey := true,
                   hasPersistentKeepaliveInterval := true }
        publicKey := Key.ofByte 1
        presharedKey := Key.ofByte 3
        endpoint := ⟨[2, 0, 0xca, 0x6c, 192, 0, 2, 1] ++ List.replicate 20 0, by decide⟩
        persistentKeepaliveInterval := 25
        allowedips := [v4Host 1, v4Host 2, v6Host 1, v6Host 2] },
      { Wgpeer.zero with
        flags := { removeMe := true, hasPublicKey := true }
        publicKey := Key.ofByte 2
        allowedips := [v4Host 3] }] }

/-- `twoPeerDevice` at `SOCKET_BUFFER_SIZE = 260`, the least the bound allows for `wg0`: the
first message fills up inside the first peer's allowed-ips, and the second resumes there
and carries the second peer. -/
theorem kernelSetDevice_chunks_twoPeers : capacityBound twoPeerDevice.name ≤ 260 ∧
    (∃ msgs, (∀ fuel, pendingAll twoPeerDevice.peers < fuel →
      kernelSetDevice 260 none [] twoPeerDevice fuel = some (msgs, 0)) ∧
      Chunking twoPeerDevice 260 msgs) ∧
    (kernelSetDevice 260 none [] twoPeerDevice 8).map (fun r => (r.1.map msgPeers).map List.length) =
      some [1, 2] :=
  ⟨by decide, kernelSetDevice_chunks _ _ (by decide), by decide⟩

end WireguardIpc
