import TokenPumper.Pumpfun.Fire
import TokenPumper.Pumpfun.Quote
import TokenPumper.Leaders.Cache
import TokenPumper.Shreds.Launches
import TokenPumper.Shreds.Copies
import TokenPumper.CurveSub.Once
import TokenPumper.Keys.BatchKept
import TokenPumper.Keys.Recycle
import TokenPumper.Keys.Persist
import TokenPumper.Debug
import TokenPumper.Leaders.Slides
import TokenPumper.Files
import TokenPumper.Leaders.Classified
import TokenPumper.Leaders.Usable
import TokenPumper.Leaders.Regions
import TokenPumper.Leaders.Bootstrap
import TokenPumper.Senders.RunWorker
import TokenPumper.Senders.Shutdown
import TokenPumper.Senders.Drain
import TokenPumper.Pumpfun.Mints
import TokenPumper.Pumpfun.Picks
import TokenPumper.Pumpfun.LaunchFits
import TokenPumper.CurveSub.Sold
import TokenPumper.Keys.Encoders
import TokenPumper.Keys.DistributeFits
import TokenPumper.Keys.Gates
import TokenPumper.Keys.SweepBooks
import TokenPumper.Keys.FeePayer
import TokenPumper.Keys.Dice
import TokenPumper.Keys.Calendar
import TokenPumper.Senders.ApiKey
import TokenPumper.Pumpfun.QuoteTotal
import TokenPumper.Pumpfun.MintKeys
import TokenPumper.JitoAuth.Refresher
import TokenPumper.Keys.History
import TokenPumper.Funded
import TokenPumper.Submitted
import TokenPumper.Blockhash
import TokenPumper.JitoAuth.Heartbeat
import TokenPumper.Shreds.Receiver
import TokenPumper.Senders.Session
import TokenPumper.Ipfs
import TokenPumper.Claimed
import TokenPumper.Launched
