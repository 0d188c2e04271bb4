/-
# Return codes of `infra_state.h` and `infra_defs.h`

Every function of the SDK reports through one signed return code. The codes are
kept as integers under the source's names, because callers compare them with
`STATE_SUCCESS` by sign as often as by value.
-/

import Mathlib.Algebra.Ring.Int.Defs
import Mathlib.Algebra.Ring.Nat

namespace EnosDeviceSdk.Infra

def stateSuccess : Int := 0

def stateUserInputPk : Int := -0x0103
def stateUserInputDn : Int := -0x0105
def stateUserInputDevid : Int := -0x0110
def stateUserInputInvalid : Int := -0x0113

def stateSysDependMalloc : Int := -0x0201
def stateSysDependMutexCreate : Int := -0x0205
def stateSysDependNwkClose : Int := -0x0208
def stateSysDependNwkReadError : Int := -0x020B
def stateSysDependSemaphoreCreate : Int := -0x020C
def stateSysDependSemaphoreWait : Int := -0x020D

def stateMqttConnackVersionUnaccept : Int := -0x0301
def stateMqttConnackIdentReject : Int := -0x0302
def stateMqttConnackServiceNa : Int := -0x0303
def stateMqttConnackNotAuthorized : Int := -0x0304
def stateMqttConnackBadUserdata : Int := -0x0305
def stateMqttWaitReconnTimer : Int := -0x0306
def stateMqttSerializeConnError : Int := -0x030C
def stateMqttSerializePubackError : Int := -0x030D
def stateMqttSerializePingreqError : Int := -0x030E
def stateMqttSerializeSubError : Int := -0x030F
def stateMqttSerializeUnsubError : Int := -0x0310
def stateMqttSerializePubError : Int := -0x0311
def stateMqttDeserializeConnackError : Int := -0x0312
def stateMqttDeserializeSubackError : Int := -0x0313
def stateMqttDeserializePubError : Int := -0x0314
def stateMqttDeserializeUnsubackError : Int := -0x0315
def stateMqttPacketReadError : Int := -0x0316
def stateMqttConnackUnknownError : Int := -0x0317
def stateMqttTxBufferTooShort : Int := -0x0319
def stateMqttTopicBufTooShort : Int := -0x031A
def stateMqttConnRetryExceedMax : Int := -0x031B
def stateMqttQos1RepubExceedMax : Int := -0x031C
def stateMqttPubQosInvalid : Int := -0x031D
def stateMqttInOfflineStatus : Int := -0x031E
def stateMqttRecvUnknownPacket : Int := -0x031F
def stateMqttUnexpTopicFormat : Int := -0x0322
def stateMqttSyncSubTimeout : Int := -0x0323

def stateDevModelMasterAlreadyOpen : Int := -0x0901
def stateDevModelMasterAlreadyConnect : Int := -0x0902
def stateDevModelMasterNotOpenYet : Int := -0x0903
def stateDevModelMasterNotConnectYet : Int := -0x0904
def stateDevModelDeviceAlreadyExist : Int := -0x0905
def stateDevModelDeviceNotFound : Int := -0x0906
def stateDevModelSubdNotDeleteable : Int := -0x0907
def stateDevModelInternalMqttNotInitYet : Int := -0x090B
def stateDevModelCmOpenFailed : Int := -0x090C
def stateDevModelCmFdNotFound : Int := -0x090D
def stateDevModelCmFdError : Int := -0x090E
def stateDevModelMqttConnectFailed : Int := -0x090F
def stateDevModelDupUpstreamMsg : Int := -0x091F
def stateDevModelUpstreamRecNotFound : Int := -0x0920
def stateDevModelRefusedByCloud : Int := -0x0921
def stateDevModelMsgqFull : Int := -0x092D
def stateDevModelMsgqEmpty : Int := -0x092E
def stateDevModelCtxListFull : Int := -0x0932
def stateDevModelCtxListEmpty : Int := -0x0933
def stateDevModelYieldStopped : Int := -0x093C
def stateDevModelYieldRunning : Int := -0x093D

/-- `SUCCESS_RETURN` of `infra_defs.h`, the device model's success code. -/
def successReturn : Int := 0

/-- `MQTT_PUBLISH_PACKET_ERROR` of `infra_defs.h`. -/
def mqttPublishPacketError : Int := -21

/-- `MQTT_PUBLISH_ACK_PACKET_ERROR` of `infra_defs.h`. -/
def mqttPublishAckPacketError : Int := -19

end EnosDeviceSdk.Infra
