import BleSpeedSensor.EventPathDelivery
import BleSpeedSensor.LostWakeup
import BleSpeedSensor.SpeedTruth
import BleSpeedSensor.IntervalMeasure
import BleSpeedSensor.TxRateGate
import BleSpeedSensor.SpeedDefined
import BleSpeedSensor.SpeedBytes
import BleSpeedSensor.SpeedReports
import BleSpeedSensor.MainBleEvt
import BleSpeedSensor.SpeedReportFatal
import BleSpeedSensor.AttAgreement
import BleSpeedSensor.BondKeys
import BleSpeedSensor.LateReplies
import BleSpeedSensor.LinkDrop
import BleSpeedSensor.FreshTimer
import BleSpeedSensor.OwnTimeouts
import BleSpeedSensor.LinkAgreement
import BleSpeedSensor.NegotiationHalts
import BleSpeedSensor.TimerLaws
import BleSpeedSensor.SoftdeviceDrain
import BleSpeedSensor.RttProgress
import BleSpeedSensor.RttDown
import BleSpeedSensor.AdvertisingInit
import BleSpeedSensor.PstorageLaws
import BleSpeedSensor.PstorageLoad
import BleSpeedSensor.ConnParamsRuns
import BleSpeedSensor.SeggerPrintf
import BleSpeedSensor.DigitText
import BleSpeedSensor.PrintfOutput
import BleSpeedSensor.PrintfNumbers
import BleSpeedSensor.PrintfFormat
import BleSpeedSensor.PrintfRuns
import BleSpeedSensor.PrintfStream
