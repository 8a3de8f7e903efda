import AuthForge.OAuth2.Base64Url

/-!
# base64url loses nothing

Both directions pass through numbers: the encoder regroups the bits by six, the decoder regroups
them by eight, and the word in which the decoder collects them holds the pending bits below whatever
has been shifted further up.
-/

namespace AuthForge.OAuth2.OpenSslCryptoProvider

open Ascii

theorem base64UrlDecodeImpl_encodeImpl (b : Bytes) :
    base64UrlDecodeImpl (base64UrlEncodeImpl b) = b := by
  have hbytes : ∀ x ∈ b.map UInt8.toNat, x < 256 := by
    intro x hx
    obtain ⟨c, -, rfl⟩ := List.mem_map.mp hx
    exact c.toNat_lt
  unfold base64UrlDecodeImpl base64UrlEncodeImpl
  rw [Base64Url.encodeBlocks_eq, decodeLoop_eq _ (Base64Url.sextets_lt _) _ (by decide),
    BitBuffer.pending_zero, Base64Url.octets_sextets _ hbytes, List.nil_append, List.map_map]
  have hid : UInt8.ofNat ∘ UInt8.toNat = id := funext fun c => UInt8.ofNat_toNat
  rw [hid, List.map_id]

theorem length_base64UrlEncodeImpl (b : Bytes) :
    (base64UrlEncodeImpl b).length = (4 * b.length + 2) / 3 := by
  unfold base64UrlEncodeImpl
  rw [Base64Url.encodeBlocks_eq, List.length_map, Base64Url.length_sextets, List.length_map]

theorem mem_kBase64UrlAlphabet_of_mem {b : Bytes} {c : UInt8} (hc : c ∈ base64UrlEncodeImpl b) :
    c ∈ kBase64UrlAlphabet := by
  unfold base64UrlEncodeImpl at hc
  rw [Base64Url.encodeBlocks_eq] at hc
  obtain ⟨v, hv, rfl⟩ := List.mem_map.mp hc
  have hlt : v < kBase64UrlAlphabet.length := by
    rw [length_kBase64UrlAlphabet]
    exact Base64Url.sextets_lt _ v hv
  rw [List.getD_eq_getElem?_getD, List.getElem?_eq_getElem hlt, Option.getD_some]
  exact List.getElem_mem hlt

/-- What was encoded is decoded again, in `⌈4 |b| / 3⌉` characters of the alphabet; nothing but the
alphabet is decoded; and the key manager encodes as the provider does. -/
theorem base64Url_faithful :
    (∀ b, base64UrlDecodeImpl (base64UrlEncodeImpl b) = b) ∧
      (∀ b, (base64UrlEncodeImpl b).length = (4 * b.length + 2) / 3 ∧
        ∀ c ∈ base64UrlEncodeImpl b, c ∈ kBase64UrlAlphabet) ∧
      (∀ encoded, (∃ c ∈ encoded, c ∉ kBase64UrlAlphabet) → base64UrlDecodeImpl encoded = []) ∧
      ∀ b, JwkManager.base64UrlEncodeImpl b = base64UrlEncodeImpl b := by
  refine ⟨base64UrlDecodeImpl_encodeImpl, fun b => ⟨length_base64UrlEncodeImpl b, ?_⟩, ?_, ?_⟩
  · intro c hc
    exact mem_kBase64UrlAlphabet_of_mem hc
  · intro encoded hencoded
    obtain ⟨c, hmem, hc⟩ := hencoded
    exact decodeLoop_of_notMem hc encoded hmem {}
  · intro b
    rfl

end AuthForge.OAuth2.OpenSslCryptoProvider
