import RtStopwatch.Theorems.Timebase
import RtStopwatch.Theorems.WrapTracking
import RtStopwatch.Theorems.Tick
import RtStopwatch.Theorems.Refinement
import RtStopwatch.Theorems.Laps
import RtStopwatch.Theorems.Invariant
import RtStopwatch.Theorems.Reset
import RtStopwatch.Theorems.Observers
import RtStopwatch.Theorems.LapsPage
import RtStopwatch.Theorems.MainPage
import RtStopwatch.Theorems.Accuracy
import RtStopwatch.Theorems.StatusReport
import RtStopwatch.Theorems.Hysteresis
import RtStopwatch.Theorems.Statistics
import RtStopwatch.Theorems.PageTexts
import RtStopwatch.Theorems.Bus
import RtStopwatch.Theorems.UpdateArea
import RtStopwatch.Theorems.ClearArea
import RtStopwatch.Theorems.Image
import RtStopwatch.Theorems.Periods
import RtStopwatch.Theorems.Formats
import RtStopwatch.Theorems.CsvStream
import RtStopwatch.Theorems.Atomicity
import RtStopwatch.Theorems.Mutex
import RtStopwatch.Theorems.Timer
import RtStopwatch.Theorems.Printf
import RtStopwatch.Theorems.FormatCalls
import RtStopwatch.Theorems.Display
