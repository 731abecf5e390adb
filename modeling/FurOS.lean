import FurOS.Fs.Decoding
import FurOS.Fs.Contract
import FurOS.Fs.Composition
import FurOS.Fs.Stale
import FurOS.Disk.Corruption
import FurOS.Disk.Formatting
import FurOS.Disk.Regions
import FurOS.Disk.Wedge
import FurOS.Boot.Interruption
import FurOS.Screen.Viewport
import FurOS.Installer.Rules
import FurOS.Shell.Confidentiality
import FurOS.Shell.Privilege
import FurOS.Shell.Access
import FurOS.Shell.Parents
import FurOS.Installer.Installed
import FurOS.Shell.Session
import FurOS.Shell.WorkingDirectory
import FurOS.Shell.Effects
import FurOS.Desktop.Survival
import FurOS.Shell.Numbers
import FurOS.Shell.Wireless
import FurOS.Shell.Tokens
import FurOS.Shell.Saving
import FurOS.Shell.Prompt
import FurOS.Shell.Creators
import FurOS.Shell.Search
import FurOS.Shell.Echo
import FurOS.Shell.Editor
import FurOS.Screen.Scrollback
import FurOS.Keyboard
import FurOS.Decimal
import FurOS.Desktop.Leaving
import FurOS.Desktop.Reopening
import FurOS.Desktop.Lines
import FurOS.Desktop.Buffer
import FurOS.Desktop.Rendering
import FurOS.Desktop.Fileman
import FurOS.Desktop.Selection
import FurOS.Desktop.Viewing
import FurOS.Desktop.Panel
import FurOS.Disk.Ports
import FurOS.Disk.Probing
import FurOS.Disk.Ahci
import FurOS.Disk.Addressing
import FurOS.Disk.Bus
import FurOS.Foundation.Monitor
import FurOS.Disk.Discovery
import FurOS.Disk.DeviceMap
import FurOS.Disk.Programming
import FurOS.Disk.ConfigSpace
import FurOS.Disk.Layers
import FurOS.Disk.Driven
import FurOS.Foundation.Branching
import FurOS.Fs.Tree
import FurOS.Fs.Refinement
import FurOS.Boot.LongMode
import FurOS.Fs.Listing
import FurOS.Installer.Locals
import FurOS.Desktop.Desk
import FurOS.Installer.Keys
import FurOS.Lifetime
import FurOS.Installer.Typing
import FurOS.Foundation.Pairs
import FurOS.Installer.Masking
import FurOS.Serial
