import NeurAvr.CString
import NeurAvr.Util
import NeurAvr.Timer
import NeurAvr.Divisor
import NeurAvr.Uart.Recv
import NeurAvr.Uart.RecvInv
import NeurAvr.Uart.Lines
import NeurAvr.Uart.Send
import NeurAvr.Uart.Init
import NeurAvr.Adc
import NeurAvr.AdcInv
import NeurAvr.App.Report
import NeurAvr.App.Parser
import NeurAvr.App.Registry
import NeurAvr.App.Tick
import NeurAvr.App.Base
import NeurAvr.App.Command
import NeurAvr.Emu.Atomic
import NeurAvr.Emu.Uart
import NeurAvr.App.Frame
import NeurAvr.App.FrameCheck
import NeurAvr.App.FrameInv
import NeurAvr.App.ShortHelp
import NeurAvr.App.TxRefine
import NeurAvr.Gpio.Bank
import NeurAvr.Gpio.M328p
import NeurAvr.Gpio.M2560
