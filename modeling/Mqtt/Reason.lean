/-!
# Reason codes

The outcome that an acknowledgment, a CONNACK or a DISCONNECT reports. Codes from 0x80 on report a
failure. The return codes of a v3.1.1 CONNACK are numbers of their own; `ofConnectReturn?` and
`toConnectReturn` map them to reasons and back, and `toConnectReturn_of_ofConnectReturn?` says
that reading a return code loses nothing.
-/

namespace Mqtt

/-- The outcome of a request. -/
inductive Reason
  /-- Success, normal disconnection and granted QoS 0. -/
  | success
  | grantedQoS1
  | grantedQoS2
  | disconnectWithWillMessage
  | noMatchingSubscribers
  | noSubscriptionExisted
  | continueAuthentication
  | reAuthenticate
  | unspecifiedError
  | malformedPacket
  | protocolError
  | implementationSpecificError
  | unsupportedProtocolVersion
  | clientIdentifierNotValid
  | badUsernameOrPassword
  | notAuthorized
  | serverUnavailable
  | serverBusy
  | banned
  | serverShuttingDown
  | badAuthenticationMethod
  | keepAliveTimeout
  | sessionTakenOver
  | topicFilterInvalid
  | topicNameInvalid
  | packetIdentifierInUse
  | packetIdentifierNotFound
  | receiveMaximumExceeded
  | topicAliasInvalid
  | packetTooLarge
  | messageRateTooHigh
  | quotaExceeded
  | administrativeAction
  | payloadFormatInvalid
  | retainNotSupported
  | qosNotSupported
  | useAnotherServer
  | serverMoved
  | sharedSubscriptionsNotSupported
  | connectionRateExceeded
  | maximumConnectTime
  | subscriptionIdentifiersNotSupported
  | wildcardSubscriptionsNotSupported
  deriving DecidableEq, Repr, Inhabited

namespace Reason

/-- Every reason, in the order of their numbers. -/
def all : List Reason :=
  [.success, .grantedQoS1, .grantedQoS2, .disconnectWithWillMessage, .noMatchingSubscribers,
    .noSubscriptionExisted, .continueAuthentication, .reAuthenticate, .unspecifiedError,
    .malformedPacket, .protocolError, .implementationSpecificError, .unsupportedProtocolVersion,
    .clientIdentifierNotValid, .badUsernameOrPassword, .notAuthorized, .serverUnavailable,
    .serverBusy, .banned, .serverShuttingDown, .badAuthenticationMethod, .keepAliveTimeout,
    .sessionTakenOver, .topicFilterInvalid, .topicNameInvalid, .packetIdentifierInUse,
    .packetIdentifierNotFound, .receiveMaximumExceeded, .topicAliasInvalid, .packetTooLarge,
    .messageRateTooHigh, .quotaExceeded, .administrativeAction, .payloadFormatInvalid,
    .retainNotSupported, .qosNotSupported, .useAnotherServer, .serverMoved,
    .sharedSubscriptionsNotSupported, .connectionRateExceeded, .maximumConnectTime,
    .subscriptionIdentifiersNotSupported, .wildcardSubscriptionsNotSupported]

/-- The number of a reason. -/
def toByte : Reason → UInt8
  | .success => 0x00
  | .grantedQoS1 => 0x01
  | .grantedQoS2 => 0x02
  | .disconnectWithWillMessage => 0x04
  | .noMatchingSubscribers => 0x10
  | .noSubscriptionExisted => 0x11
  | .continueAuthentication => 0x18
  | .reAuthenticate => 0x19
  | .unspecifiedError => 0x80
  | .malformedPacket => 0x81
  | .protocolError => 0x82
  | .implementationSpecificError => 0x83
  | .unsupportedProtocolVersion => 0x84
  | .clientIdentifierNotValid => 0x85
  | .badUsernameOrPassword => 0x86
  | .notAuthorized => 0x87
  | .serverUnavailable => 0x88
  | .serverBusy => 0x89
  | .banned => 0x8A
  | .serverShuttingDown => 0x8B
  | .badAuthenticationMethod => 0x8C
  | .keepAliveTimeout => 0x8D
  | .sessionTakenOver => 0x8E
  | .topicFilterInvalid => 0x8F
  | .topicNameInvalid => 0x90
  | .packetIdentifierInUse => 0x91
  | .packetIdentifierNotFound => 0x92
  | .receiveMaximumExceeded => 0x93
  | .topicAliasInvalid => 0x94
  | .packetTooLarge => 0x95
  | .messageRateTooHigh => 0x96
  | .quotaExceeded => 0x97
  | .administrativeAction => 0x98
  | .payloadFormatInvalid => 0x99
  | .retainNotSupported => 0x9A
  | .qosNotSupported => 0x9B
  | .useAnotherServer => 0x9C
  | .serverMoved => 0x9D
  | .sharedSubscriptionsNotSupported => 0x9E
  | .connectionRateExceeded => 0x9F
  | .maximumConnectTime => 0xA0
  | .subscriptionIdentifiersNotSupported => 0xA1
  | .wildcardSubscriptionsNotSupported => 0xA2

/-- The reason with a number. -/
def ofByte? (b : UInt8) : Option Reason := all.find? (·.toByte == b)

/-- The name of a reason. -/
def name : Reason → String
  | .success => "Success"
  | .grantedQoS1 => "GrantedQoS1"
  | .grantedQoS2 => "GrantedQoS2"
  | .disconnectWithWillMessage => "DisconnectWithWillMessage"
  | .noMatchingSubscribers => "NoMatchingSubscribers"
  | .noSubscriptionExisted => "NoSubscriptionExisted"
  | .continueAuthentication => "ContinueAuthentication"
  | .reAuthenticate => "ReAuthenticate"
  | .unspecifiedError => "UnspecifiedError"
  | .malformedPacket => "MalformedPacket"
  | .protocolError => "ProtocolError"
  | .implementationSpecificError => "ImplementationSpecificError"
  | .unsupportedProtocolVersion => "UnsupportedProtocolVersion"
  | .clientIdentifierNotValid => "ClientIdentifierNotValid"
  | .badUsernameOrPassword => "BadUsernameOrPassword"
  | .notAuthorized => "NotAuthorized"
  | .serverUnavailable => "ServerUnavailable"
  | .serverBusy => "ServerBusy"
  | .banned => "Banned"
  | .serverShuttingDown => "ServerShuttingDown"
  | .badAuthenticationMethod => "BadAuthenticationMethod"
  | .keepAliveTimeout => "KeepAliveTimeout"
  | .sessionTakenOver => "SessionTakenOver"
  | .topicFilterInvalid => "TopicFilterInvalid"
  | .topicNameInvalid => "TopicNameInvalid"
  | .packetIdentifierInUse => "PacketIdentifierInUse"
  | .packetIdentifierNotFound => "PacketIdentifierNotFound"
  | .receiveMaximumExceeded => "ReceiveMaximumExceeded"
  | .topicAliasInvalid => "TopicAliasInvalid"
  | .packetTooLarge => "PacketTooLarge"
  | .messageRateTooHigh => "MessageRateTooHigh"
  | .quotaExceeded => "QuotaExceeded"
  | .administrativeAction => "AdministrativeAction"
  | .payloadFormatInvalid => "PayloadFormatInvalid"
  | .retainNotSupported => "RetainNotSupported"
  | .qosNotSupported => "QoSNotSupported"
  | .useAnotherServer => "UseAnotherServer"
  | .serverMoved => "ServerMoved"
  | .sharedSubscriptionsNotSupported => "SharedSubscriptionsNotSupported"
  | .connectionRateExceeded => "ConnectionRateExceeded"
  | .maximumConnectTime => "MaximumConnectTime"
  | .subscriptionIdentifiersNotSupported => "SubscriptionIdentifiersNotSupported"
  | .wildcardSubscriptionsNotSupported => "WildcardSubscriptionsNotSupported"

/-- A failure: the number is 0x80 or above. -/
def isError (r : Reason) : Bool := 0x80 ≤ r.toByte

@[simp] theorem ofByte?_toByte (r : Reason) : ofByte? r.toByte = some r := by cases r <;> rfl

/-! ## Return codes of a v3.1.1 CONNACK -/

/-- The reason that a v3.1.1 return code stands for. -/
def ofConnectReturn? : UInt8 → Option Reason
  | 0 => some .success
  | 1 => some .unsupportedProtocolVersion
  | 2 => some .clientIdentifierNotValid
  | 3 => some .serverUnavailable
  | 4 => some .badUsernameOrPassword
  | 5 => some .notAuthorized
  | _ => none

/-- The v3.1.1 return code for a reason; what has none of its own is "server unavailable". -/
def toConnectReturn : Reason → UInt8
  | .success => 0
  | .unsupportedProtocolVersion => 1
  | .clientIdentifierNotValid => 2
  | .badUsernameOrPassword => 4
  | .notAuthorized => 5
  | _ => 3

theorem toConnectReturn_of_ofConnectReturn? {b : UInt8} {r : Reason}
    (h : ofConnectReturn? b = some r) : r.toConnectReturn = b := by
  unfold ofConnectReturn? at h
  split at h <;> cases h <;> rfl

end Reason

end Mqtt
