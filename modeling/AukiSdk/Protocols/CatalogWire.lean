import AukiSdk.Foundation.LengthPrefix
import AukiSdk.Protocols.Catalog

/-!
# The catalog round trip

What the writers put on a stream is read back, and no byte after it.
-/

namespace AukiSdk.Protocols.Catalog

open AukiSdk.Foundation AukiSdk.Net AukiSdk.Recording AukiSdk.Registry List
open ByteStream (Read readExact u32ToBeBytes u32FromBeBytes)

section Frames

variable {ε α : Type} {errors : FrameErrors ε} {decode : List UInt8 → Option α}

theorem writeJson_ok {bytes written : List UInt8}
    (hwrt : writeJson errors bytes = .ok written) :
    bytes.length ≤ maxResourcesFrameBytes ∧ written = u32ToBeBytes bytes.length ++ bytes := by
  unfold writeJson at hwrt
  split at hwrt
  · cases hwrt
  · exact ⟨by omega, (Except.ok.inj hwrt).symm⟩

theorem readJson_frame {bytes : List UInt8} (hnon : bytes ≠ [])
    (hlen : bytes.length ≤ maxResourcesFrameBytes) (rest : List UInt8) {value : α}
    (hdec : decode bytes = some value) :
    readJson errors decode (u32ToBeBytes bytes.length ++ bytes ++ rest) = (.ok value, rest) := by
  have hfit : bytes.length < 2 ^ 32 := hlen.trans_lt (by decide)
  have hpos := length_pos_iff.mpr hnon
  have hhead : readExact errors.io 4 (u32ToBeBytes bytes.length ++ bytes ++ rest) =
      (.ok (u32ToBeBytes bytes.length), bytes ++ rest) := by
    rw [append_assoc]
    rfl
  have hpay : readExact errors.io bytes.length (bytes ++ rest) = (.ok bytes, rest) := by
    rw [readExact, if_pos (by simp), take_left, drop_left]
  simp only [readJson, hhead, LengthPrefix.u32FromBeBytes_u32ToBeBytes hfit, hpay, hdec]
  rw [if_neg (by omega), if_neg (by omega)]

theorem readJson_ok {incoming rest : List UInt8} {value : α}
    (hread : readJson errors decode incoming = (.ok value, rest)) :
    ∃ prefixBytes payload, incoming = prefixBytes ++ payload ++ rest ∧
      prefixBytes.length = 4 ∧ payload.length = u32FromBeBytes prefixBytes ∧
      0 < payload.length ∧ payload.length ≤ maxResourcesFrameBytes ∧
      decode payload = some value := by
  unfold readJson at hread
  split at hread
  · cases hread
  · rename_i prefixBytes left hhead
    obtain ⟨hinc, hfour⟩ := ByteStream.readExact_eq_ok hhead
    dsimp only at hread
    split at hread
    · cases hread
    · split at hread
      · cases hread
      · split at hread
        · cases hread
        · rename_i payload remaining hpay
          obtain ⟨hleft, hlen⟩ := ByteStream.readExact_eq_ok hpay
          split at hread
          · cases hread
          · rename_i found hdec
            cases hread
            refine ⟨prefixBytes, payload, ?_, hfour, hlen, by omega, by omega, hdec⟩
            rw [hinc, hleft, append_assoc]

theorem readExact_consumes (failure : ε) (count : ℕ) (arrived : List UInt8) :
    ∃ front, arrived = front ++ (readExact failure count arrived).2 ∧ front.length ≤ count := by
  unfold readExact
  split
  · exact ⟨arrived.take count, (take_append_drop _ _).symm, length_take_le _ _⟩
  · exact ⟨arrived, (append_nil _).symm, by omega⟩

/-- At most the prefix and the announced bytes are taken off the stream. -/
theorem readJson_consumes (errors : FrameErrors ε) (decode : List UInt8 → Option α)
    (incoming : List UInt8) :
    ∃ front, incoming = front ++ (readJson errors decode incoming).2 ∧
      front.length ≤ 4 + u32FromBeBytes (incoming.take 4) := by
  obtain ⟨first, hfst, hfour⟩ := readExact_consumes errors.io 4 incoming
  unfold readJson
  split
  · rename_i hhead
    rw [hhead] at hfst
    exact ⟨first, hfst, by omega⟩
  · rename_i prefixBytes left hhead
    obtain ⟨hinc, hlen⟩ := ByteStream.readExact_eq_ok hhead
    have hann : incoming.take 4 = prefixBytes := by
      rw [hinc]
      exact take_left' hlen
    obtain ⟨second, hsnd, hpay⟩ := readExact_consumes errors.io (u32FromBeBytes prefixBytes) left
    have hwhl : incoming = (prefixBytes ++ second) ++
        (readExact errors.io (u32FromBeBytes prefixBytes) left).2 := by
      rw [append_assoc, ← hsnd]
      exact hinc
    have hbnd : (prefixBytes ++ second).length ≤ 4 + u32FromBeBytes (incoming.take 4) := by
      rw [hann, length_append, hlen]
      omega
    have hsho : prefixBytes.length ≤ 4 + u32FromBeBytes (incoming.take 4) := by omega
    dsimp only
    split
    · exact ⟨prefixBytes, hinc, hsho⟩
    · split
      · exact ⟨prefixBytes, hinc, hsho⟩
      · split
        · rename_i hread
          rw [hread] at hwhl
          exact ⟨_, hwhl, hbnd⟩
        · rename_i hread
          rw [hread] at hwhl
          split <;> exact ⟨_, hwhl, hbnd⟩

theorem validated_ok {read : Read ε α} {validate : α → Except ε Unit} {value : α}
    {rest : List UInt8} :
    validated read validate = (.ok value, rest) ↔
      read = (.ok value, rest) ∧ validate value = .ok () := by
  unfold validated
  obtain ⟨result, left⟩ := read
  cases result with
  | error error => simp
  | ok found =>
    dsimp only
    split
    · rename_i hinvalid
      simp only [Prod.mk.injEq, reduceCtorEq, false_and, Except.ok.injEq, false_iff, not_and,
        and_imp]
      rintro rfl - hvalid
      cases hinvalid.symm.trans hvalid
    · rename_i hvalid
      simp only [Prod.mk.injEq, Except.ok.injEq, iff_self_and, and_imp]
      rintro rfl -
      exact hvalid

theorem validated_rest (read : Read ε α) (validate : α → Except ε Unit) :
    (validated read validate).2 = read.2 := by
  unfold validated
  obtain ⟨result, left⟩ := read
  cases result with
  | error error => rfl
  | ok found =>
    dsimp only
    split <;> rfl

end Frames

/-- What is documented of `Value` and of the derived decoder of a response. -/
structure SerdeJson.Documented (serde : SerdeJson) : Prop where
  value_string : ∀ text, serde.value (.string text) = .string text
  value_get : ∀ entries key, (entries.map Prod.fst).Nodup →
    (serde.value (.object entries)).get key = ((Json.object entries).get key).map serde.value
  resources_written : ∀ rows, serde.resources (resourcesToJson rows) = some rows

/-- The text of a document parses to it. -/
def SerdeJson.Parses (serde : SerdeJson) (document : Json) : Prop :=
  serde.fromSlice document.toVec = some document

/-- The derived decoder of rows inverts the derived encoder, also from a `Value`. -/
structure SerdeJson.DecodesRow (serde : SerdeJson) (row : V2ResourceEntry) : Prop where
  direct : serde.v2Row row.toJson = some row
  fromValue : serde.v2Row (serde.value row.toJson) = some row

/-- The same for the rows of version 0.3, which are decoded from a `Value`. -/
def SerdeJson.DecodesEntry (serde : SerdeJson) : ResourceEntry → Prop
  | .v2 row => serde.v2Row (serde.value row.toJson) = some row
  | .messageChannel channel => serde.channel (serde.value channel.toJson) = some channel

theorem V2Variant.name_ne (variant : V2Variant) :
    variant.name.toList ≠ "message_channel".toList := by
  cases variant <;> decide

theorem keys_row_nodup (row : V2ResourceEntry) :
    ∃ entries, row.toJson = .object entries ∧ (entries.map Prod.fst).Nodup ∧
      (Json.object entries).get "variant" = some (text row.variantContent.variant.name) := by
  refine ⟨_, rfl, ?_, ?_⟩
  · cases row.head <;> cases row.extent <;> cases row.sensor <;> cases row.pose <;>
      simp [optionalEntry, VariantContent.entries]
  · cases row.head <;> cases row.extent <;> cases row.sensor <;> cases row.pose <;>
      simp [Json.get, optionalEntry, VariantContent.entries]

variable {serde : SerdeJson}

theorem variant_row (hser : serde.Documented) (row : V2ResourceEntry) :
    ((serde.value row.toJson).get "variant").bind Json.asStr =
      some row.variantContent.variant.name.toList := by
  obtain ⟨entries, hents, hnd, hvar⟩ := keys_row_nodup row
  rw [hents, hser.value_get entries _ hnd, hvar, Option.map_some, text, hser.value_string]
  rfl

theorem variant_channel (hser : serde.Documented) (channel : MessageChannelResource) :
    ((serde.value channel.toJson).get "variant").bind Json.asStr =
      some "message_channel".toList := by
  have hget : channel.toJson.get "variant" = some (text "message_channel") := by
    simp [Json.get, MessageChannelResource.toJson]
  have hval : (serde.value channel.toJson).get "variant" =
      (channel.toJson.get "variant").map serde.value :=
    hser.value_get _ _ (by simp)
  rw [hval, hget, Option.map_some, text, hser.value_string]
  rfl

theorem deserialize_row (hser : serde.Documented) (row : V2ResourceEntry) :
    ResourceEntry.deserialize serde row.toJson =
      (serde.v2Row (serde.value row.toJson)).map .v2 := by
  have hvar := variant_row hser row
  simp only [ResourceEntry.deserialize]
  rw [if_neg]
  rw [hvar]
  exact fun hsm => row.variantContent.variant.name_ne (Option.some.inj hsm)

theorem deserialize_channel (hser : serde.Documented) (channel : MessageChannelResource) :
    ResourceEntry.deserialize serde channel.toJson =
      (serde.channel (serde.value channel.toJson)).map .messageChannel := by
  simp only [ResourceEntry.deserialize]
  rw [if_pos (variant_channel hser channel)]

theorem deserialize_entry (hser : serde.Documented) {entry : ResourceEntry}
    (hdec : serde.DecodesEntry entry) :
    ResourceEntry.deserialize serde entry.toJson = some entry := by
  cases entry with
  | v2 row =>
    have hrow : serde.v2Row (serde.value row.toJson) = some row := hdec
    rw [ResourceEntry.toJson, deserialize_row hser, hrow]
    rfl
  | messageChannel channel =>
    have hcha : serde.channel (serde.value channel.toJson) = some channel := hdec
    rw [ResourceEntry.toJson, deserialize_channel hser, hcha]
    rfl

theorem mapM_decode {α : Type} {encode : α → Json} {decode : Json → Option α} {values : List α}
    (hdec : ∀ value ∈ values, decode (encode value) = some value) :
    (values.map encode).mapM decode = some values := by
  induction values with
  | nil => rfl
  | cons value values ih =>
    rw [forall_mem_cons] at hdec
    rw [map_cons, mapM_cons, hdec.1, ih hdec.2]
    rfl

theorem deserialize_response (hser : serde.Documented) {response : ResourcesResponse}
    (hdec : ∀ entry ∈ response.resources, serde.DecodesEntry entry) :
    ResourcesResponse.deserialize serde response.toJson = some response := by
  have hrows : (response.resources.map ResourceEntry.toJson).mapM
      (ResourceEntry.deserialize serde) = some response.resources :=
    mapM_decode fun entry hent => deserialize_entry hser (hdec entry hent)
  rw [ResourcesResponse.deserialize, ResourcesResponse.toJson, hser.resources_written]
  simp only [Option.bind_eq_bind, Option.bind_some, hrows]
  rfl

theorem deserialize_v2_response (hser : serde.Documented) {response : V2ResourcesResponse}
    (hdec : ∀ row ∈ response.resources, serde.DecodesRow row) :
    V2ResourcesResponse.deserialize serde response.toJson = some response := by
  have hrows : (response.resources.map V2ResourceEntry.toJson).mapM serde.v2Row =
      some response.resources :=
    mapM_decode fun row hrow => (hdec row hrow).direct
  rw [V2ResourcesResponse.deserialize, V2ResourcesResponse.toJson, hser.resources_written]
  simp only [Option.bind_eq_bind, Option.bind_some, hrows]
  rfl

theorem toVec_object_ne_nil (entries : List (String × Json)) :
    (Json.object entries).toVec ≠ [] := by
  rw [Json.toVec]
  exact cons_ne_nil _ _

variable {written : List UInt8}

theorem readResourcesResponse_written (hser : serde.Documented) {response : ResourcesResponse}
    (hwrt : writeResourcesResponse response = .ok written)
    (hpar : serde.Parses response.toJson)
    (hdcd : ∀ entry ∈ response.resources, serde.DecodesEntry entry) (rest : List UInt8) :
    readResourcesResponse serde (written ++ rest) = (.ok response, rest) := by
  obtain ⟨_, hvalid, hfrm⟩ := Checks.bind_eq_ok.mp hwrt
  obtain ⟨hlen, rfl⟩ := writeJson_ok hfrm
  have hnon : response.toJson.toVec ≠ [] := toVec_object_ne_nil _
  have hdec : (serde.fromSlice response.toJson.toVec).bind
      (ResourcesResponse.deserialize serde) = some response := by
    rw [hpar]
    exact deserialize_response hser hdcd
  exact validated_ok.mpr ⟨readJson_frame hnon hlen rest hdec, hvalid⟩

theorem readV2ResourcesResponse_written (hser : serde.Documented) {response : V2ResourcesResponse}
    (hwrt : writeV2ResourcesResponse response = .ok written)
    (hpar : serde.Parses response.toJson)
    (hdcd : ∀ row ∈ response.resources, serde.DecodesRow row) (rest : List UInt8) :
    readV2ResourcesResponse serde (written ++ rest) = (.ok response, rest) := by
  obtain ⟨hlen, rfl⟩ := writeJson_ok hwrt
  have hnon : response.toJson.toVec ≠ [] := toVec_object_ne_nil _
  have hdec : (serde.fromSlice response.toJson.toVec).bind
      (V2ResourcesResponse.deserialize serde) = some response := by
    rw [hpar]
    exact deserialize_v2_response hser hdcd
  exact readJson_frame hnon hlen rest hdec

theorem readResourcesRequest_written {request : ResourcesRequest}
    (hwrt : writeResourcesRequest request = .ok written) (hpar : serde.Parses request.toJson)
    (hdcd : serde.request request.toJson = some request) (rest : List UInt8) :
    readResourcesRequest serde (written ++ rest) = (.ok request, rest) := by
  obtain ⟨_, hvalid, hfrm⟩ := Checks.bind_eq_ok.mp hwrt
  obtain ⟨hlen, rfl⟩ := writeJson_ok hfrm
  have hnon : request.toJson.toVec ≠ [] := toVec_object_ne_nil _
  have hdec : (serde.fromSlice request.toJson.toVec).bind serde.request = some request := by
    rw [hpar]
    exact hdcd
  exact validated_ok.mpr ⟨readJson_frame hnon hlen rest hdec, hvalid⟩

variable (rows : List V2ResourceEntry)

theorem toJson_v2_rows :
    (ResourcesResponse.mk (rows.map .v2)).toJson = (V2ResourcesResponse.mk rows).toJson := by
  simp only [ResourcesResponse.toJson, V2ResourcesResponse.toJson, map_map]
  rfl

theorem validate_v2_rows : (ResourcesResponse.mk (rows.map .v2)).validate = .ok () := by
  refine Checks.all_eq_ok.mpr fun check hchk => ?_
  simp only [map_map, mem_map, Function.comp_apply] at hchk
  obtain ⟨row, _, rfl⟩ := hchk
  rfl

theorem write_v2_rows (written : List UInt8) : writeResourcesResponse ⟨rows.map .v2⟩ = .ok written ↔
      writeV2ResourcesResponse ⟨rows⟩ = .ok written := by
  have hwrt : writeResourcesResponse ⟨rows.map .v2⟩ =
      writeJson frameErrors (V2ResourcesResponse.mk rows).toJson.toVec := by
    rw [writeResourcesResponse, validate_v2_rows, toJson_v2_rows]
    rfl
  rw [hwrt, writeV2ResourcesResponse]
  unfold writeJson
  split <;> simp

/-- The bytes that a successful read took are one frame with a valid document. -/
def TakesFrame (serde : SerdeJson) (valid : Json → Prop) (incoming rest : List UInt8) : Prop :=
  ∃ prefixBytes payload document, incoming = prefixBytes ++ payload ++ rest ∧
    prefixBytes.length = 4 ∧ payload.length = u32FromBeBytes prefixBytes ∧
    0 < payload.length ∧ payload.length ≤ maxResourcesFrameBytes ∧
    serde.fromSlice payload = some document ∧ valid document

theorem takesFrame_of_read {ε α : Type} {errors : FrameErrors ε} {decode : Json → Option α}
    {incoming rest : List UInt8} {value : α}
    (hread : readJson errors (fun bytes => (serde.fromSlice bytes).bind decode) incoming =
      (.ok value, rest)) :
    TakesFrame serde (fun document => decode document = some value) incoming rest := by
  obtain ⟨prefixBytes, payload, hinc, hfour, hlen, hpos, hlim, hdec⟩ := readJson_ok hread
  obtain ⟨document, hdoc, hval⟩ := Option.bind_eq_some_iff.mp hdec
  exact ⟨prefixBytes, payload, document, hinc, hfour, hlen, hpos, hlim, hdoc, hval⟩

/-- At most the prefix and the announced bytes were taken. -/
def StaysInFrame (incoming rest : List UInt8) : Prop :=
  ∃ front, incoming = front ++ rest ∧ front.length ≤ 4 + u32FromBeBytes (incoming.take 4)

theorem filtered_comm (response : ResourcesResponse) (first second : ResourcesRequest) :
    (response.filtered first).filtered second = (response.filtered second).filtered first := by
  simp only [ResourcesResponse.filtered, filter_filter, Bool.and_comm]

/-- The wire format of the resource catalogs. -/
theorem resource_catalog_wire_format (serde : SerdeJson) (hserde : serde.Documented) :
    (∀ request written rest, writeResourcesRequest request = .ok written →
      serde.Parses request.toJson → serde.request request.toJson = some request →
      readResourcesRequest serde (written ++ rest) = (.ok request, rest)) ∧
    (∀ response written rest, writeResourcesResponse response = .ok written →
      serde.Parses response.toJson →
      (∀ entry ∈ response.resources, serde.DecodesEntry entry) →
      readResourcesResponse serde (written ++ rest) = (.ok response, rest)) ∧
    (∀ rows : List V2ResourceEntry, ∀ written,
      (writeResourcesResponse ⟨rows.map .v2⟩ = .ok written ↔
        writeV2ResourcesResponse ⟨rows⟩ = .ok written) ∧
      ∀ rest, writeV2ResourcesResponse ⟨rows⟩ = .ok written →
        serde.Parses (V2ResourcesResponse.mk rows).toJson →
        (∀ row ∈ rows, serde.DecodesRow row) →
        readV2ResourcesResponse serde (written ++ rest) = (.ok ⟨rows⟩, rest) ∧
          readResourcesResponse serde (written ++ rest) = (.ok ⟨rows.map .v2⟩, rest)) ∧
    (∀ (row : V2ResourceEntry) channel,
      ResourceEntry.deserialize serde row.toJson ≠ some (.messageChannel channel)) ∧
    (∀ (channel : MessageChannelResource) row,
      ResourceEntry.deserialize serde channel.toJson ≠ some (.v2 row)) ∧
    (∀ incoming, (∀ request rest, readV2ResourcesRequest serde incoming = (.ok request, rest) →
        TakesFrame serde (serde.v2Request · = some request) incoming rest) ∧
      (∀ response rest, readV2ResourcesResponse serde incoming = (.ok response, rest) →
        TakesFrame serde (V2ResourcesResponse.deserialize serde · = some response) incoming
          rest) ∧
      (∀ request rest, readResourcesRequest serde incoming = (.ok request, rest) →
        request.validate = .ok () ∧
          TakesFrame serde (serde.request · = some request) incoming rest) ∧
      (∀ response rest, readResourcesResponse serde incoming = (.ok response, rest) →
        response.validate = .ok () ∧
          TakesFrame serde (ResourcesResponse.deserialize serde · = some response) incoming
            rest) ∧
      StaysInFrame incoming (readV2ResourcesRequest serde incoming).2 ∧
      StaysInFrame incoming (readV2ResourcesResponse serde incoming).2 ∧
      StaysInFrame incoming (readResourcesRequest serde incoming).2 ∧
      StaysInFrame incoming (readResourcesResponse serde incoming).2) ∧
    ∀ response first second,
      (ResourcesResponse.filtered response first).resources = response.resources.filter
        (fun row => first.variants = [] ∨ row.variant ∈ first.variants) ∧
      (response.filtered first).filtered second = (response.filtered second).filtered first := by
  refine ⟨fun request written rest hwrite hparses hdecodes =>
      readResourcesRequest_written hwrite hparses hdecodes rest,
    fun response written rest hwrite hparses hdecodes =>
      readResourcesResponse_written hserde hwrite hparses hdecodes rest,
    fun rows written => ⟨write_v2_rows rows written, fun rest hwrite hparses hdecodes => ?_⟩,
    ?_, ?_, fun incoming => ⟨?_, ?_, ?_, ?_, ?_, ?_, ?_, ?_⟩, fun response first second =>
      ⟨?_, filtered_comm response first second⟩⟩
  · refine ⟨readV2ResourcesResponse_written hserde hwrite hparses hdecodes rest,
      readResourcesResponse_written hserde ((write_v2_rows rows written).mpr hwrite) ?_ ?_ rest⟩
    · rw [toJson_v2_rows]
      exact hparses
    · intro entry hentry
      obtain ⟨row, hrow, rfl⟩ := mem_map.mp hentry
      exact (hdecodes row hrow).fromValue
  · intro row channel hconfused
    rw [deserialize_row hserde] at hconfused
    obtain ⟨found, _, hfound⟩ := Option.map_eq_some_iff.mp hconfused
    cases hfound
  · intro channel row hconfused
    rw [deserialize_channel hserde] at hconfused
    obtain ⟨found, _, hfound⟩ := Option.map_eq_some_iff.mp hconfused
    cases hfound
  · exact fun request rest hread => takesFrame_of_read hread
  · exact fun response rest hread => takesFrame_of_read hread
  · intro request rest hread
    obtain ⟨hread, hvalid⟩ := validated_ok.mp hread
    exact ⟨hvalid, takesFrame_of_read hread⟩
  · intro response rest hread
    obtain ⟨hread, hvalid⟩ := validated_ok.mp hread
    exact ⟨hvalid, takesFrame_of_read hread⟩
  · exact readJson_consumes _ _ _
  · exact readJson_consumes _ _ _
  · rw [readResourcesRequest, validated_rest]
    exact readJson_consumes _ _ _
  · rw [readResourcesResponse, validated_rest]
    exact readJson_consumes _ _ _
  · refine filter_congr fun row _ => ?_
    cases hvariants : first.variants <;> simp [ResourcesRequest.includes, hvariants]

def sampleSerde (known : Json) : SerdeJson where
  fromSlice bytes := if bytes = known.toVec then some known else none
  value := id
  v2Request _ := none
  request _ := none
  resources document :=
    match document.get "resources" with
    | some (.array rows) => some rows
    | _ => none
  v2Row _ := none
  channel document := do
    let owner ← (document.get "owner_peer_id").bind Json.asStr
    let clock ← document.get "clock"
    return {
      ownerPeerId := ← PeerId.fromStr (String.ofList owner)
      resourceId := ← (document.get "resource_id").bind Json.asStr
      clock := {
        peerId := ← (clock.get "peer_id").bind Json.asStr
        id := ← (clock.get "id").bind Json.asStr
        hash := ← (clock.get "hash").bind Json.asStr } }

theorem sampleSerde_documented (known : Json) : (sampleSerde known).Documented where
  value_string _ := rfl
  value_get _ _ _ := by simp [sampleSerde]
  resources_written _ := rfl

def sampleChannel : MessageChannelResource where
  ownerPeerId := ⟨[0, 0], rfl⟩
  resourceId := ['m']
  clock := ⟨['1', '1'], ['c'], ['h']⟩

theorem resource_catalog_wire_format_sample :
    ∃ written, writeResourcesResponse ⟨[.messageChannel sampleChannel]⟩ = .ok written ∧
      readResourcesResponse
          (sampleSerde (ResourcesResponse.mk [.messageChannel sampleChannel]).toJson)
          (written ++ [7]) =
        (.ok ⟨[.messageChannel sampleChannel]⟩, [7]) := by
  have haccepted : (writeResourcesResponse ⟨[.messageChannel sampleChannel]⟩).isOk = true := by
    decide +kernel
  obtain ⟨written, hwrite⟩ := Checks.isOk_iff.mp haccepted
  have howner : PeerId.fromStr sampleChannel.ownerPeerId.toText =
      some sampleChannel.ownerPeerId := by decide +kernel
  have hdecodes (known : Json) :
      (sampleSerde known).channel sampleChannel.toJson = some sampleChannel := by
    simp [sampleSerde, MessageChannelResource.toJson, registryRefToJson, Json.get, Json.asStr,
      howner]
  have hparses (known : Json) : (sampleSerde known).Parses known := if_pos rfl
  refine ⟨written, hwrite, ?_⟩
  refine (resource_catalog_wire_format _ (sampleSerde_documented _)).2.1 _ _ _ hwrite
    (hparses _) fun entry hentry => ?_
  rw [mem_singleton.mp hentry]
  exact hdecodes _

end AukiSdk.Protocols.Catalog
