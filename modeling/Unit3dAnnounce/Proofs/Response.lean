import Unit3dAnnounce.Format.Bencode
import Unit3dAnnounce.Model.Response

/-!
# Responses are canonical bencode

Both writers assemble their body from literals. Each body is shown to be the encoding of a
dictionary, so that the decoder gives back the entries, which are then read field by field.
-/

namespace Unit3dAnnounce

open Bencode

lemma decimal_eq (n : ℕ) : decimal n = Bencode.decimal n := by
  simp [decimal, Bencode.decimal, ascii, toString]

lemma encodeInt_natCast (n : ℕ) : encodeInt n = 0x69 :: (Bencode.decimal n ++ [0x65]) := by
  have hn : ¬ (n : ℤ) < 0 := by omega
  rw [encodeInt, if_neg hn, Int.natAbs_natCast]

/-- The non-silent warnings, in the order in which they were added. -/
def WarningCollection.spoken (warnings : WarningCollection) : List AnnounceWarning :=
  warnings.filter fun warning => !warning.isSilent

lemma flatMap_append_separator {texts : List Text} (h : texts ≠ []) :
    texts.flatMap (fun text => text ++ separator) =
      separator.intercalate texts ++ separator := by
  induction texts with
  | nil => exact absurd rfl h
  | cons text texts ih =>
    cases texts with
    | nil => simp [List.intercalate]
    | cons next texts =>
      rw [List.flatMap_cons, ih (List.cons_ne_nil _ _)]
      simp [List.intercalate, List.append_assoc]

lemma foldl_message (warnings : WarningCollection) (message : Text) :
    warnings.foldl (fun message warning =>
      if warning.isSilent then message else message ++ warning.toBytes ++ separator) message =
      message ++ (warnings.spoken.map AnnounceWarning.toBytes).flatMap
        (fun text => text ++ separator) := by
  induction warnings generalizing message with
  | nil => simp [WarningCollection.spoken]
  | cons warning warnings ih =>
    rw [List.foldl_cons, ih]
    by_cases hsilent : warning.isSilent
    · simp [WarningCollection.spoken, hsilent]
    · simp [WarningCollection.spoken, hsilent, List.append_assoc]

/-- The message is the non-silent warnings with a separator between them. -/
lemma intoMessage_eq (warnings : WarningCollection) :
    warnings.intoMessage =
      if warnings.spoken = [] then none
      else some (separator.intercalate (warnings.spoken.map AnnounceWarning.toBytes)) := by
  unfold WarningCollection.intoMessage
  by_cases hspoken : warnings.spoken = []
  · simp only [foldl_message, hspoken]
    simp
  · have hne : warnings.spoken.map AnnounceWarning.toBytes ≠ [] := by simpa using hspoken
    have hwarnings : warnings ≠ [] := by
      rintro rfl
      exact hspoken rfl
    have hmessage : separator.intercalate (warnings.spoken.map AnnounceWarning.toBytes) ++
        separator ≠ [] := by simp [separator, ascii]
    simp only [foldl_message, List.nil_append, flatMap_append_separator hne, if_neg hspoken,
      List.isEmpty_iff, hwarnings, hmessage, if_false]
    rw [List.length_append, Nat.add_sub_cancel, List.take_left' rfl]

/-- What is bencoded under one key. -/
abbrev Entry := List UInt8 × Value

def nat (n : ℕ) : Value := .int n

/-- The entries that an announce is answered with. -/
def announceEntries {F : Type} (config : Config F) (interval : UInt32) (torrent : Torrent)
    (warnings : WarningCollection) (list : PeerList) : List Entry :=
  [(ascii "complete",
      nat (if list.isOverSeedListRateLimit || !warnings.isEmpty then 0 else torrent.seeders.toNat)),
    (ascii "downloaded", nat torrent.timesCompleted.toNat),
    (ascii "incomplete",
      nat (if list.isOverLeechListRateLimit || !warnings.isEmpty then 0
        else torrent.leechers.toNat)),
    (ascii "interval", nat interval.toNat),
    (ascii "min interval", nat config.announceMin.toNat),
    (ascii "peers", .bytes (serializeIpv4 list.peers))] ++
  (if (serializeIpv6 list.peers).isEmpty then []
    else [(ascii "peers6", .bytes (serializeIpv6 list.peers))]) ++
  (if warnings.spoken = [] then []
    else [(ascii "warning message",
      .bytes (separator.intercalate (warnings.spoken.map AnnounceWarning.toBytes)))])

/-- The interval that an error asks the client to wait. -/
def AnnounceError.interval (e : AnnounceError) : ℕ := if e.isModeration then 30 else 5400

def AnnounceError.entries (e : AnnounceError) : List Entry :=
  if e.isCriticalWarning then
    [(ascii "complete", nat 0), (ascii "downloaded", nat 0), (ascii "incomplete", nat 0),
      (ascii "interval", nat e.interval), (ascii "min interval", nat e.interval),
      (ascii "peers", .bytes []), (ascii "warning message", .bytes e.toBytes)]
  else
    [(ascii "failure reason", .bytes e.toBytes), (ascii "interval", nat e.interval),
      (ascii "min interval", nat e.interval)]

/-- How an entry is written. -/
def encodeEntry (entry : Entry) : List UInt8 := encodeBytes entry.1 ++ entry.2.encode

lemma encode_dict (entries : List Entry) :
    (Value.dict entries).encode = 0x64 :: (entries.flatMap encodeEntry ++ [0x65]) := by
  rw [Value.encode, encodeEntries_eq]
  rfl

lemma encodeEntry_nat (key : List UInt8) (n : ℕ) :
    encodeEntry (key, nat n) = encodeBytes key ++ (0x69 :: (decimal n ++ [0x65])) := by
  rw [encodeEntry, nat, Value.encode, encodeInt_natCast, decimal_eq]

lemma encodeEntry_bytes (key s : List UInt8) :
    encodeEntry (key, .bytes s) = encodeBytes key ++ (decimal s.length ++ (ascii ":" ++ s)) := by
  have hcolon : ascii ":" = [0x3A] := by decide +kernel
  rw [encodeEntry, Value.encode, encodeBytes, encodeBytes, decimal_eq, hcolon]
  rfl

lemma peers_eq (s : List UInt8) :
    (if s.isEmpty then ascii "0:" else decimal s.length ++ ascii ":" ++ s) =
      decimal s.length ++ (ascii ":" ++ s) := by
  cases s with
  | nil => decide +kernel
  | cons b s => simp

lemma optional_eq (c : Prop) [Decidable c] (literal key s : List UInt8)
    (h : literal = encodeBytes key) :
    (if c then [] else literal ++ decimal s.length ++ ascii ":" ++ s) =
      (if c then [] else [(key, Value.bytes s)]).flatMap encodeEntry := by
  by_cases hc : c
  · simp [hc]
  · simp [hc, encodeEntry_bytes, h]

/-- The body of an announce is the encoding of its entries. -/
lemma bencode_eq {F : Type} (config : Config F) (interval : UInt32) (torrent : Torrent)
    (warnings : WarningCollection) (list : PeerList) :
    bencode config interval torrent warnings list =
      (Value.dict (announceEntries config interval torrent warnings list)).encode := by
  have hcomplete : ascii "d8:completei" = 0x64 :: (encodeBytes (ascii "complete") ++ [0x69]) := by
    decide +kernel
  have hdownloaded : ascii "e10:downloadedi" =
      0x65 :: (encodeBytes (ascii "downloaded") ++ [0x69]) := by decide +kernel
  have hincomplete : ascii "e10:incompletei" =
      0x65 :: (encodeBytes (ascii "incomplete") ++ [0x69]) := by decide +kernel
  have hinterval : ascii "e8:intervali" = 0x65 :: (encodeBytes (ascii "interval") ++ [0x69]) := by
    decide +kernel
  have hmin : ascii "e12:min intervali" =
      0x65 :: (encodeBytes (ascii "min interval") ++ [0x69]) := by decide +kernel
  have hpeers : ascii "e5:peers" = 0x65 :: encodeBytes (ascii "peers") := by decide +kernel
  have hpeers6 : ascii "6:peers6" = encodeBytes (ascii "peers6") := by decide +kernel
  have hwarning : ascii "15:warning message" = encodeBytes (ascii "warning message") := by
    decide +kernel
  have hend : ascii "e" = [0x65] := by decide +kernel
  have hzero : ascii "0" = decimal 0 := by decide +kernel
  have hmessage : (if warnings.spoken = [] then []
      else [(ascii "warning message", Value.bytes
        (separator.intercalate (warnings.spoken.map AnnounceWarning.toBytes)))]) =
      warnings.intoMessage.toList.map fun message =>
        (ascii "warning message", Value.bytes message) := by
    rw [intoMessage_eq]
    by_cases hspoken : warnings.spoken = []
    · rw [if_pos hspoken, if_pos hspoken]
      rfl
    · rw [if_neg hspoken, if_neg hspoken]
      rfl
  unfold bencode
  simp only [peers_eq, optional_eq _ _ _ _ hpeers6]
  rw [hcomplete, hdownloaded, hincomplete, hinterval, hmin, hpeers, hend, hzero, hwarning,
    encode_dict, announceEntries, hmessage, List.flatMap_append, List.flatMap_append]
  simp only [← apply_ite decimal]
  cases warnings.intoMessage with
  | none =>
    simp only [List.flatMap_cons, List.flatMap_nil, encodeEntry_nat, encodeEntry_bytes,
      List.append_assoc, List.cons_append, List.nil_append, Option.toList_none, List.map_nil]
  | some message =>
    simp only [List.flatMap_cons, List.flatMap_nil, encodeEntry_nat, encodeEntry_bytes,
      List.append_assoc, List.cons_append, List.nil_append, Option.toList_some, List.map_cons,
      List.map_nil]

/-- The body of an error is the encoding of its entries. -/
lemma intoResponse_eq (e : AnnounceError) :
    e.intoResponse = (Value.dict e.entries).encode := by
  unfold AnnounceError.intoResponse AnnounceError.entries AnnounceError.interval
  rw [apply_ite (fun entries => (Value.dict entries).encode)]
  refine if_congr Iff.rfl ?_ ?_
  · have hliteral : ascii "d8:completei0e10:downloadedi0e10:incompletei0e" = 0x64 ::
        ([(ascii "complete", nat 0), (ascii "downloaded", nat 0),
          (ascii "incomplete", nat 0)].flatMap encodeEntry) := by decide +kernel
    have hpeers : ascii "5:peers0:15:warning message" =
        encodeEntry (ascii "peers", .bytes []) ++ encodeBytes (ascii "warning message") := by
      decide +kernel
    have hend : ascii "e" = [0x65] := by decide +kernel
    have hinterval : (if e.isModeration then ascii "8:intervali30e12:min intervali30e"
        else ascii "8:intervali5400e12:min intervali5400e") =
        [(ascii "interval", nat (if e.isModeration then 30 else 5400)),
          (ascii "min interval", nat (if e.isModeration then 30 else 5400))].flatMap
          encodeEntry := by
      cases e.isModeration <;> decide +kernel
    rw [hliteral, hpeers, hend, hinterval, encode_dict]
    simp only [List.flatMap_cons, List.flatMap_nil, encodeEntry_bytes, List.append_assoc,
      List.cons_append, List.nil_append]
  · have hliteral : ascii "d14:failure reason" =
        0x64 :: encodeBytes (ascii "failure reason") := by decide +kernel
    have hinterval : (if e.isModeration then ascii "8:intervali30e12:min intervali30ee"
        else ascii "8:intervali5400e12:min intervali5400ee") =
        [(ascii "interval", nat (if e.isModeration then 30 else 5400)),
          (ascii "min interval", nat (if e.isModeration then 30 else 5400))].flatMap
          encodeEntry ++ [0x65] := by
      cases e.isModeration <;> decide +kernel
    rw [hliteral, hinterval, encode_dict]
    simp only [List.flatMap_cons, List.flatMap_nil, encodeEntry_bytes, List.append_assoc,
      List.cons_append, List.nil_append]

/-- A list cut into blocks of one size. -/
def blocks (size : ℕ) (s : List UInt8) : List (List UInt8) :=
  (List.range (s.length / size)).map fun i => (s.drop (i * size)).take size

def bigEndian (s : List UInt8) : ℕ := s.foldl (fun n b => 256 * n + b.toNat) 0

/-- The addresses and ports in compact blocks of an address and two bytes. -/
def readSockets (addressLength : ℕ) (s : List UInt8) : List (List UInt8 × ℕ) :=
  (blocks (addressLength + 2) s).map fun block =>
    (block.take addressLength, bigEndian (block.drop addressLength))

/-- The sockets of the peers with an IPv4 address. -/
def socketsIpv4 (peers : List (Peer.Index × Peer)) : List (List UInt8 × ℕ) :=
  peers.filterMap fun (_, peer) =>
    match peer.ipAddress with
    | .v4 octets => some (octets.toList, peer.port.toNat)
    | .v6 _ => none

/-- The sockets of the peers with an IPv6 address. -/
def socketsIpv6 (peers : List (Peer.Index × Peer)) : List (List UInt8 × ℕ) :=
  peers.filterMap fun (_, peer) =>
    match peer.ipAddress with
    | .v4 _ => none
    | .v6 octets => some (octets.toList, peer.port.toNat)

lemma blocks_append {size : ℕ} (hsize : 0 < size) {block : List UInt8} (h : block.length = size)
    (s : List UInt8) : blocks size (block ++ s) = block :: blocks size s := by
  have hlength : (block ++ s).length / size = s.length / size + 1 := by
    rw [List.length_append, h, Nat.add_comm, Nat.add_div_right _ hsize]
  unfold blocks
  rw [hlength, List.range_succ_eq_map, List.map_cons, List.map_map, Nat.zero_mul, List.drop_zero,
    List.take_left' h]
  congr 1
  apply List.map_congr_left
  intro i _
  have hdrop : (i + 1) * size = block.length + i * size := by rw [h, Nat.succ_mul, Nat.add_comm]
  rw [Function.comp_apply, Nat.succ_eq_add_one, hdrop, List.drop_length_add_append]

lemma bigEndian_toBeBytes (port : UInt16) : bigEndian (toBeBytes port) = port.toNat := by
  have hlt := port.toNat_lt
  simp [bigEndian, toBeBytes, Nat.shiftRight_eq_div_pow]
  omega

lemma readSockets_cons {addressLength : ℕ} {address : List UInt8}
    (h : address.length = addressLength) (port : UInt16) (s : List UInt8) :
    readSockets addressLength (address ++ toBeBytes port ++ s) =
      (address, port.toNat) :: readSockets addressLength s := by
  have hlength : (address ++ toBeBytes port).length = addressLength + 2 := by
    simp [toBeBytes, h]
  rw [readSockets, blocks_append (Nat.succ_pos _) hlength, List.map_cons, List.take_left' h,
    List.drop_left' h, bigEndian_toBeBytes]
  rfl

/-- The IPv4 blocks are read back as the sockets of the peers, and nothing is left over. -/
lemma readSockets_serializeIpv4 (peers : List (Peer.Index × Peer)) :
    readSockets 4 (serializeIpv4 peers) = socketsIpv4 peers ∧
      (serializeIpv4 peers).length = 6 * (socketsIpv4 peers).length := by
  induction peers with
  | nil => exact ⟨rfl, rfl⟩
  | cons entry peers ih =>
    obtain ⟨hread, hlength⟩ := ih
    unfold serializeIpv4 socketsIpv4 at hread hlength ⊢
    rw [List.flatMap_cons, List.filterMap_cons]
    cases hip : entry.2.ipAddress with
    | v4 octets =>
      simp only [hip]
      rw [readSockets_cons octets.toList_length, hread, List.length_append, hlength]
      refine ⟨rfl, ?_⟩
      simp [toBeBytes, octets.toList_length]
      omega
    | v6 octets =>
      simp only [hip]
      exact ⟨hread, hlength⟩

/-- The IPv6 blocks are read back as the sockets of the peers, and nothing is left over. -/
lemma readSockets_serializeIpv6 (peers : List (Peer.Index × Peer)) :
    readSockets 16 (serializeIpv6 peers) = socketsIpv6 peers ∧
      (serializeIpv6 peers).length = 18 * (socketsIpv6 peers).length := by
  induction peers with
  | nil => exact ⟨rfl, rfl⟩
  | cons entry peers ih =>
    obtain ⟨hread, hlength⟩ := ih
    unfold serializeIpv6 socketsIpv6 at hread hlength ⊢
    rw [List.flatMap_cons, List.filterMap_cons]
    cases hip : entry.2.ipAddress with
    | v4 octets =>
      simp only [hip]
      exact ⟨hread, hlength⟩
    | v6 octets =>
      simp only [hip]
      rw [readSockets_cons octets.toList_length, hread, List.length_append, hlength]
      refine ⟨rfl, ?_⟩
      simp [toBeBytes, octets.toList_length]
      omega

/-- The keys of a dictionary, in byte order and without duplicates. -/
def IsSorted (entries : List Entry) : Prop := (entries.map Prod.fst).Pairwise (· < ·)

/-- What the client of a successful announce reads. -/
structure IsAnnounceReply {F : Type} (config : Config F) (interval : UInt32) (torrent : Torrent)
    (warnings : WarningCollection) (list : PeerList) (entries : List Entry) : Prop where
  sorted : IsSorted entries
  complete : entries.lookup (ascii "complete") =
    some (nat (if list.isOverSeedListRateLimit || !warnings.isEmpty then 0
      else torrent.seeders.toNat))
  downloaded : entries.lookup (ascii "downloaded") = some (nat torrent.timesCompleted.toNat)
  incomplete : entries.lookup (ascii "incomplete") =
    some (nat (if list.isOverLeechListRateLimit || !warnings.isEmpty then 0
      else torrent.leechers.toNat))
  interval : entries.lookup (ascii "interval") = some (nat interval.toNat)
  minInterval : entries.lookup (ascii "min interval") = some (nat config.announceMin.toNat)
  peers : ∃ s, entries.lookup (ascii "peers") = some (.bytes s) ∧
    readSockets 4 s = socketsIpv4 list.peers ∧ s.length = 6 * (socketsIpv4 list.peers).length
  /-- There is no key where there is no such peer. -/
  peers6 : if socketsIpv6 list.peers = [] then entries.lookup (ascii "peers6") = none
    else ∃ s, entries.lookup (ascii "peers6") = some (.bytes s) ∧
      readSockets 16 s = socketsIpv6 list.peers ∧ s.length = 18 * (socketsIpv6 list.peers).length
  warningMessage : entries.lookup (ascii "warning message") =
    if warnings.spoken = [] then none
    else some (.bytes ((ascii "; ").intercalate (warnings.spoken.map AnnounceWarning.toBytes)))

lemma isSorted_announceEntries {F : Type} (config : Config F) (interval : UInt32)
    (torrent : Torrent) (warnings : WarningCollection) (list : PeerList) :
    IsSorted (announceEntries config interval torrent warnings list) := by
  unfold IsSorted announceEntries
  by_cases hpeers6 : (serializeIpv6 list.peers).isEmpty <;>
    by_cases hspoken : warnings.spoken = []
  all_goals
    simp only [hpeers6, hspoken, if_true, if_false, Bool.false_eq_true, List.append_nil,
      List.map_append, List.map_cons, List.map_nil]
    decide +kernel

lemma isEmpty_serializeIpv6 (peers : List (Peer.Index × Peer)) :
    (serializeIpv6 peers).isEmpty ↔ socketsIpv6 peers = [] := by
  have hlength := (readSockets_serializeIpv6 peers).2
  rw [List.isEmpty_iff_length_eq_zero, ← List.length_eq_zero_iff]
  omega

lemma isAnnounceReply_announceEntries {F : Type} (config : Config F) (interval : UInt32)
    (torrent : Torrent) (warnings : WarningCollection) (list : PeerList) :
    IsAnnounceReply config interval torrent warnings list
      (announceEntries config interval torrent warnings list) where
  sorted := isSorted_announceEntries config interval torrent warnings list
  complete := rfl
  downloaded := rfl
  incomplete := rfl
  interval := rfl
  minInterval := rfl
  peers := ⟨serializeIpv4 list.peers, rfl, readSockets_serializeIpv4 list.peers⟩
  peers6 := by
    have hempty := isEmpty_serializeIpv6 list.peers
    by_cases hpeers6 : socketsIpv6 list.peers = []
    · rw [if_pos hpeers6, announceEntries, if_pos (hempty.mpr hpeers6)]
      by_cases hspoken : warnings.spoken = []
      · rw [if_pos hspoken]
        rfl
      · rw [if_neg hspoken]
        rfl
    · rw [if_neg hpeers6, announceEntries, if_neg (fun h => hpeers6 (hempty.mp h))]
      exact ⟨serializeIpv6 list.peers, rfl, readSockets_serializeIpv6 list.peers⟩
  warningMessage := by
    unfold announceEntries
    by_cases hpeers6 : (serializeIpv6 list.peers).isEmpty <;>
      by_cases hspoken : warnings.spoken = []
    all_goals
      simp only [hpeers6, hspoken, if_true, if_false, Bool.false_eq_true]
      rfl

/-- What the client of a failed announce reads: the error text, as a warning or as the reason
of the failure. -/
structure IsErrorReply (e : AnnounceError) (entries : List Entry) : Prop where
  sorted : IsSorted entries
  text : entries.lookup (ascii (if e.isCriticalWarning then "warning message" else "failure reason")) =
    some (.bytes e.toBytes)
  other : entries.lookup (ascii (if e.isCriticalWarning then "failure reason" else "warning message")) =
    none

lemma isErrorReply_entries (e : AnnounceError) : IsErrorReply e e.entries := by
  have hcritical : e.isCriticalWarning = true ∨ e.isCriticalWarning = false := by
    cases e.isCriticalWarning <;> simp
  rcases hcritical with h | h
  · constructor
    · simp only [IsSorted, AnnounceError.entries, h, if_true, List.map_cons, List.map_nil]
      decide +kernel
    · simp only [AnnounceError.entries, h, if_true]
      rfl
    · simp only [AnnounceError.entries, h, if_true]
      rfl
  · constructor
    · simp only [IsSorted, AnnounceError.entries, h, if_false, Bool.false_eq_true, List.map_cons,
        List.map_nil]
      decide +kernel
    · simp only [AnnounceError.entries, h, if_false, Bool.false_eq_true]
      rfl
    · simp only [AnnounceError.entries, h, if_false, Bool.false_eq_true]
      rfl

/-- Every body is one canonically bencoded dictionary that holds what was meant. -/
theorem responses_decode :
    (∀ {F : Type} (config : Config F) (interval : UInt32) (torrent : Torrent)
      (warnings : WarningCollection) (list : PeerList), ∃ entries,
      decode (bencode config interval torrent warnings list) = some (.dict entries) ∧
        IsAnnounceReply config interval torrent warnings list entries) ∧
    (∀ e : AnnounceError, ∃ entries,
      decode e.intoResponse = some (.dict entries) ∧ IsErrorReply e entries) := by
  constructor
  · intro F config interval torrent warnings list
    refine ⟨announceEntries config interval torrent warnings list, ?_,
      isAnnounceReply_announceEntries config interval torrent warnings list⟩
    rw [bencode_eq, decode_encode]
  · intro e
    exact ⟨e.entries, by rw [intoResponse_eq, decode_encode], isErrorReply_entries e⟩

end Unit3dAnnounce
