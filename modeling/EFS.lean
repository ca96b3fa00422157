import EFS.Rtos.RoundRobin
import EFS.Rtos.BoundedWaiting
import EFS.System.Punctual
import EFS.Cpu.DmaInterrupts
import EFS.Cpu.TimerInterrupts
import EFS.Firmware.UartEcho
import EFS.Monitor.Session
import EFS.Rtos.Slice
import EFS.System.Removal
import EFS.Cpu.TimerPair
import EFS.Drivers.Pwm
import EFS.Kernel.Draining
import EFS.Rtos.Suspension
import EFS.Rtos.IdleTask
import EFS.Rtos.Executing
import EFS.Rtos.FreshIds
import EFS.Drivers.DmaTransfer
import EFS.Firmware.Lifecycle
import EFS.Drivers.AddressMap
import EFS.System.PowerOn
import EFS.Cpu.TimerEvents
import EFS.Firmware.BlinkTiming
import EFS.System.ExecutionOrder
import EFS.Drivers.AutoReset
import EFS.Kernel.Requests
import EFS.System.DmaBus
import EFS.Cpu.Rtos
import EFS.Firmware.ResetOrder
import EFS.Cpu.RegisterControl
import EFS.Cpu.AttachOrder
import EFS.System.ElapsedTime
import EFS.Firmware.Selection
import EFS.Firmware.Loading
import EFS.Kernel.Lines
import EFS.Drivers.DmaFlags
import EFS.Drivers.I2cDirection
import EFS.Drivers.TimerJumps
import EFS.Drivers.TimerMove
import EFS.Drivers.DmaUart
import EFS.System.BusDetachment
import EFS.Drivers.UartStreams
import EFS.Drivers.SpiResponses
import EFS.Hal.Spi
import EFS.Drivers.GpioPins
import EFS.Drivers.PwmRange
import EFS.Hal.I2c
import EFS.Cpu.PowerOff
import EFS.Firmware.PartialReset
import EFS.Monitor.Command
import EFS.Cpu.Parts
import EFS.Cpu.PowerTime
import EFS.System.Wiring
import EFS.Drivers.AdcRegisters
