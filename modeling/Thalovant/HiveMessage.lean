import Thalovant.Value

/-!
# The identity of a client and the messages of the mesh
-/

namespace Thalovant

structure HubDataPlaneEndpoints where
  https : Option String
  wss : Option String
  mqtt : Option String

structure HubProtocolSettings where
  wss : Bool
  http : Bool
  mqtt : Bool

structure MqttBrokerCredentials where
  endpoint : String
  username : String
  password : String
  topicPrefix : Option String
  qos : UInt8
  tls : Bool

/-- What a client says it is, and where its hub answers. -/
structure Identity where
  accessKey : String
  password : String
  siteId : String
  defaultMaster : String
  defaultPort : UInt16
  defaultPath : String
  publicKey : Option String
  metadata : Map
  name : Option String
  dataPlaneEndpoints : HubDataPlaneEndpoints
  protocols : HubProtocolSettings
  mqtt : Option MqttBrokerCredentials

/-- The body of a BINARY frame. -/
structure ThalovantBinary where
  kind : String
  data : Bytes
  metadata : Map
  utterance : Option String
  lang : Option String
  fileName : Option String

structure HiveMessage where
  msgType : String
  payload : Map
  binary : Option ThalovantBinary := none
  metadata : Map := []
  route : List Value := []
  node : Option Value := none
  targetSiteId : Option Value := none
  targetPubkey : Option Value := none
  sourcePeer : Option Value := none

end Thalovant
