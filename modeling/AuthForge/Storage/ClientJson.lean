import AuthForge.Storage.ClientCache

/-!
# The JSON text of a cached client

`serializeClient` and `deserializeClient` of the client cache. Writing and parsing of JSON text is
jsoncpp's, so both are parameters; what the cache builds and reads is the value in between.
-/

namespace AuthForge.Storage

open OAuth2

inductive Json
  | null
  | bool (b : Bool)
  | int (n : Int)
  | str (s : String)
  | array (items : List Json)
  | object (members : List (String × Json))

namespace Json

/-- `asString`. An array and an object throw; nothing that is written here is read as one. -/
def asString : Json → String
  | null => ""
  | bool b => if b then "true" else "false"
  | int n => toString n
  | str s => s
  | array _ => ""
  | object _ => ""

/-- The member of this name; `null` where there is none. -/
def member (json : Json) (name : String) : Option Json :=
  match json with
  | object members => members.lookup name
  | _ => none

/-- `json.get(name, "").asString()`. -/
def getString (json : Json) (name : String) : String := ((json.member name).getD (.str "")).asString

/-- The items of a member that is an array. -/
def getStrings (json : Json) (name : String) : List String :=
  match json.member name with
  | some (array items) => items.map asString
  | _ => []

end Json

/-- jsoncpp, as far as it is used on text. -/
structure JsonText where
  writeString : Json → String
  /-- `none` where the text does not parse. -/
  parseFromStream : String → Option Json

namespace ClientJson

variable (text : JsonText)

def clientTypeToString : ClientType → String
  | .PUBLIC => "PUBLIC"
  | .CONFIDENTIAL => "CONFIDENTIAL"

/-- jsoncpp keeps the members in the order of their names. -/
def clientJson (c : OAuth2Client) : Json :=
  .object
    [("allowedScopes", .array (c.allowedScopes.map .str)),
     ("clientId", .str c.clientId),
     ("clientSecretHash", .str c.clientSecretHash),
     ("clientType", .str (clientTypeToString c.clientType)),
     ("redirectUris", .array (c.redirectUris.map .str)),
     ("salt", .str c.salt),
     ("tokenEndpointAuthMethod", .str c.tokenEndpointAuthMethod)]

def serializeClient (c : OAuth2Client) : String := text.writeString (clientJson c)

/-- `none` where the text is no client: it does not parse, lacks the client id or the type, or has a
blank id or an unknown type. -/
def deserializeClient (jsonStr : String) : Option OAuth2Client :=
  match text.parseFromStream jsonStr with
  | none => none
  | some root =>
    match root.member "clientId", root.member "clientType" with
    | some clientId, some clientType =>
      if clientId.asString = "" then none
      else
        match ClientTables.stringToClientType clientType.asString with
        | .error _ => none
        | .ok clientType =>
          some
            { clientId := clientId.asString
              clientType
              clientSecretHash := root.getString "clientSecretHash"
              salt := root.getString "salt"
              redirectUris := root.getStrings "redirectUris"
              allowedScopes := root.getStrings "allowedScopes"
              tokenEndpointAuthMethod := root.getString "tokenEndpointAuthMethod" }
    | _, _ => none

/-! ### Both ways -/

variable {text} {c : OAuth2Client}

@[simp] theorem stringToClientType_clientTypeToString (clientType : ClientType) :
    ClientTables.stringToClientType (clientTypeToString clientType) = .ok clientType := by
  cases clientType <;> rfl

@[simp] theorem asString_comp_str : Json.asString ∘ Json.str = id := rfl

/-- What is read back is what the cache holds as payload: the client, or nothing without an id. -/
theorem deserializeClient_serializeClient
    (hroundTrip : text.parseFromStream (text.writeString (clientJson c)) = some (clientJson c)) :
    deserializeClient text (serializeClient text c) = ClientCache.deserializeClient c := by
  unfold deserializeClient serializeClient
  rw [hroundTrip]
  unfold ClientCache.deserializeClient
  by_cases hid : c.clientId = ""
  · simp [Json.member, clientJson, List.lookup_cons, Json.asString, hid]
  · simp [Json.member, clientJson, List.lookup_cons, Json.asString, Json.getString, Json.getStrings,
      hid]

end ClientJson

end AuthForge.Storage
