import Unit3dAnnounce.Model.ClientIp
import Unit3dAnnounce.Model.Sample

/-!
# Addresses that a client cannot choose

A reverse proxy appends the address of its client to the last header line of the configured name, or
adds a line of its own. Whatever the client has sent in such lines, no other address is read.
-/

namespace Unit3dAnnounce

/-- A header value that `to_str` accepts. -/
def IsVisible (value : List UInt8) : Prop := ∀ b ∈ value, 0x20 ≤ b ∧ b < 0x7F ∨ b = 0x09

instance : DecidablePred IsVisible := fun value =>
  inferInstanceAs (Decidable (∀ b ∈ value, 0x20 ≤ b ∧ b < 0x7F ∨ b = 0x09))

lemma headerToStr_eq (value : List UInt8) :
    headerToStr value = if IsVisible value then some value else none := by
  unfold headerToStr
  congr 1
  simp [IsVisible]

lemma isVisible_append {value value' : List UInt8} :
    IsVisible (value ++ value') ↔ IsVisible value ∧ IsVisible value' := List.forall_mem_append

/-- What stands behind the last comma. -/
lemma getLast?_splitOn_append {client appended : Text}
    (hclient : client = [] ∨ client.getLast? = some comma) (happended : comma ∉ appended) :
    ((client ++ appended).splitOn comma).getLast? = some appended := by
  rcases hclient with rfl | hclient
  · rw [List.nil_append, List.splitOn_eq_singleton happended]
    rfl
  · obtain ⟨client, rfl⟩ := List.getLast?_eq_some_iff.mp hclient
    rw [List.append_assoc, List.singleton_append, List.splitOn_append_cons_self,
      List.splitOn_eq_singleton happended, List.getLast?_concat]

lemma proxiedIp_append (before : List (List UInt8)) {client appended : Text}
    (hclient : client = [] ∨ client.getLast? = some comma) (happended : comma ∉ appended) :
    proxiedIp (before ++ [client ++ appended]) =
      if IsVisible client ∧ IsVisible appended then IpAddr.fromStr (Text.trim appended) else none := by
  unfold proxiedIp
  rw [List.getLast?_concat, Option.bind_eq_bind, Option.bind_some, headerToStr_eq]
  simp only [isVisible_append]
  by_cases hvisible : IsVisible client ∧ IsVisible appended
  · rw [if_pos hvisible, if_pos hvisible]
    simp only [Option.bind_some, getLast?_splitOn_append hclient happended]
  · rw [if_neg hvisible, if_neg hvisible]
    rfl

/-- Behind a proxy, a request is served for the address that the proxy has appended to the last line of
the header or not at all, whatever the client has put before it. Only the last line counts: the request
is refused exactly if a byte of this line is no visible text, or if what was appended is no address.
Without the header it is refused, too. -/
theorem ClientIp.fromRequestParts_behind_proxy {F : Type} {config : Config F} {name : Text}
    (hname : config.reverseProxyClientIpHeaderName = some name) (headers : HeaderMap)
    (connectInfo : Option SocketAddr) :
    (headers.getAll name = [] →
      ClientIp.fromRequestParts config headers connectInfo = .error .internalTrackerError) ∧
    ∀ before client appended, headers.getAll name = before ++ [client ++ appended] →
      (client = [] ∨ client.getLast? = some comma) → comma ∉ appended →
      ClientIp.fromRequestParts config headers connectInfo =
        if IsVisible client ∧ IsVisible appended then
          okOr .internalTrackerError (IpAddr.fromStr (Text.trim appended))
        else .error .internalTrackerError := by
  unfold ClientIp.fromRequestParts
  rw [hname]
  constructor
  · intro hnone
    simp only [hnone]
    rfl
  · intro before client appended hvalues hclient happended
    simp only [hvalues, proxiedIp_append before hclient happended]
    split_ifs
    · rfl
    · rfl

/-- The client pretends to be `9.9.9.9`, in a line of its own and in the line that the proxy completes. -/
theorem ClientIp.fromRequestParts_behind_proxy_spoofed :
    ClientIp.fromRequestParts
        { Sample.config with reverseProxyClientIpHeaderName := some (ascii "X-Forwarded-For") }
        [("x-forwarded-for", ascii "9.9.9.9"), ("user-agent", ascii "a"),
          ("x-forwarded-for", ascii "9.9.9.9, 10.0.0.1")]
        (some ⟨.v4 ⟨[9, 9, 9, 9], rfl⟩, 6881⟩) = .ok Sample.address := by
  have hlines : HeaderMap.getAll [("x-forwarded-for", ascii "9.9.9.9"), ("user-agent", ascii "a"),
      ("x-forwarded-for", ascii "9.9.9.9, 10.0.0.1")] (ascii "X-Forwarded-For") =
      [ascii "9.9.9.9"] ++ [ascii "9.9.9.9," ++ ascii " 10.0.0.1"] := by decide +kernel
  rw [(ClientIp.fromRequestParts_behind_proxy rfl _ _).2 _ _ _ hlines (Or.inr rfl)
    (by decide +kernel), if_pos (by decide +kernel)]
  decide +kernel

end Unit3dAnnounce
