/-!
# Property identifiers

The properties a v5.0 packet may carry. Each identifier has a number, a name and the shape of its
values; a user property and a subscription identifier may be given more than once.
-/

namespace Mqtt

/-- The shapes that property values have. -/
inductive Shape
  | byte
  | word
  | long
  | varInt
  | binary
  | text
  | pair
  deriving DecidableEq, Repr, Inhabited

/-- The name of a shape. -/
def Shape.name : Shape → String
  | .byte => "Byte"
  | .word => "TwoByteInteger"
  | .long => "FourByteInteger"
  | .varInt => "VariableByteInteger"
  | .binary => "BinaryData"
  | .text => "Utf8String"
  | .pair => "Utf8StringPair"

/-- The properties, by identifier. -/
inductive Property
  | payloadFormatIndicator
  | messageExpiryInterval
  | contentType
  | responseTopic
  | correlationData
  | subscriptionIdentifier
  | sessionExpiryInterval
  | assignedClientIdentifier
  | serverKeepAlive
  | authenticationMethod
  | authenticationData
  | requestProblemInformation
  | willDelayInterval
  | requestResponseInformation
  | responseInformation
  | serverReference
  | reasonString
  | receiveMaximum
  | topicAliasMaximum
  | topicAlias
  | maximumQoS
  | retainAvailable
  | userProperty
  | maximumPacketSize
  | wildcardSubscriptionAvailable
  | subscriptionIdentifierAvailable
  | sharedSubscriptionAvailable
  deriving DecidableEq, Repr, Inhabited

namespace Property

/-- Every property, in the order of their numbers. -/
def all : List Property :=
  [.payloadFormatIndicator, .messageExpiryInterval, .contentType, .responseTopic,
    .correlationData, .subscriptionIdentifier, .sessionExpiryInterval, .assignedClientIdentifier,
    .serverKeepAlive, .authenticationMethod, .authenticationData, .requestProblemInformation,
    .willDelayInterval, .requestResponseInformation, .responseInformation, .serverReference,
    .reasonString, .receiveMaximum, .topicAliasMaximum, .topicAlias, .maximumQoS,
    .retainAvailable, .userProperty, .maximumPacketSize, .wildcardSubscriptionAvailable,
    .subscriptionIdentifierAvailable, .sharedSubscriptionAvailable]

/-- The identifier on the wire. -/
def toByte : Property → UInt8
  | .payloadFormatIndicator => 0x01
  | .messageExpiryInterval => 0x02
  | .contentType => 0x03
  | .responseTopic => 0x08
  | .correlationData => 0x09
  | .subscriptionIdentifier => 0x0B
  | .sessionExpiryInterval => 0x11
  | .assignedClientIdentifier => 0x12
  | .serverKeepAlive => 0x13
  | .authenticationMethod => 0x15
  | .authenticationData => 0x16
  | .requestProblemInformation => 0x17
  | .willDelayInterval => 0x18
  | .requestResponseInformation => 0x19
  | .responseInformation => 0x1A
  | .serverReference => 0x1C
  | .reasonString => 0x1F
  | .receiveMaximum => 0x21
  | .topicAliasMaximum => 0x22
  | .topicAlias => 0x23
  | .maximumQoS => 0x24
  | .retainAvailable => 0x25
  | .userProperty => 0x26
  | .maximumPacketSize => 0x27
  | .wildcardSubscriptionAvailable => 0x28
  | .subscriptionIdentifierAvailable => 0x29
  | .sharedSubscriptionAvailable => 0x2A

/-- The property with an identifier. -/
def ofByte? (b : UInt8) : Option Property := all.find? (·.toByte == b)

/-- The name of a property. -/
def name : Property → String
  | .payloadFormatIndicator => "PayloadFormatIndicator"
  | .messageExpiryInterval => "MessageExpiryInterval"
  | .contentType => "ContentType"
  | .responseTopic => "ResponseTopic"
  | .correlationData => "CorrelationData"
  | .subscriptionIdentifier => "SubscriptionIdentifier"
  | .sessionExpiryInterval => "SessionExpiryInterval"
  | .assignedClientIdentifier => "AssignedClientIdentifier"
  | .serverKeepAlive => "ServerKeepAlive"
  | .authenticationMethod => "AuthenticationMethod"
  | .authenticationData => "AuthenticationData"
  | .requestProblemInformation => "RequestProblemInformation"
  | .willDelayInterval => "WillDelayInterval"
  | .requestResponseInformation => "RequestResponseInformation"
  | .responseInformation => "ResponseInformation"
  | .serverReference => "ServerReference"
  | .reasonString => "ReasonString"
  | .receiveMaximum => "ReceiveMaximum"
  | .topicAliasMaximum => "TopicAliasMaximum"
  | .topicAlias => "TopicAlias"
  | .maximumQoS => "MaximumQoS"
  | .retainAvailable => "RetainAvailable"
  | .userProperty => "UserProperty"
  | .maximumPacketSize => "MaximumPacketSize"
  | .wildcardSubscriptionAvailable => "WildcardSubscriptionAvailable"
  | .subscriptionIdentifierAvailable => "SubscriptionIdentifierAvailable"
  | .sharedSubscriptionAvailable => "SharedSubscriptionAvailable"

/-- The shape of a property's values. -/
def shape : Property → Shape
  | .payloadFormatIndicator | .requestProblemInformation | .requestResponseInformation
    | .maximumQoS | .retainAvailable | .wildcardSubscriptionAvailable
    | .subscriptionIdentifierAvailable | .sharedSubscriptionAvailable => .byte
  | .messageExpiryInterval | .sessionExpiryInterval | .willDelayInterval | .maximumPacketSize => .long
  | .contentType | .responseTopic | .assignedClientIdentifier | .authenticationMethod
    | .responseInformation | .serverReference | .reasonString => .text
  | .correlationData | .authenticationData => .binary
  | .subscriptionIdentifier => .varInt
  | .serverKeepAlive | .receiveMaximum | .topicAliasMaximum | .topicAlias => .word
  | .userProperty => .pair

/-- Whether a packet may carry the property more than once. -/
def repeatable : Property → Bool
  | .userProperty | .subscriptionIdentifier => true
  | _ => false

@[simp] theorem ofByte?_toByte (p : Property) : ofByte? p.toByte = some p := by cases p <;> rfl

end Property

end Mqtt
